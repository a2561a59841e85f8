import Commonplace.Note.Basic
import Commonplace.Query.Expr
import Commonplace.Time.Instant

namespace Commonplace

/-!
# Options of a search

What a search selects, how it orders what it found, and which part of it is returned.  Only the
first of these decides whether the options are empty.
-/

inductive SortField where
  | relevance
  | created
  | modified
  | title
  | path
  deriving DecidableEq, Inhabited

def SortField.name : SortField -> String
  | relevance => "relevance"
  | created => "created"
  | modified => "modified"
  | title => "title"
  | path => "path"

def SortField.all : List SortField :=
  [relevance, created, modified, title, path]

/-- Whether the greatest or the least result comes first. -/
inductive SortDirection where
  | ascending
  | descending
  deriving DecidableEq, Inhabited

def SortDirection.name : SortDirection -> String
  | ascending => "asc"
  | descending => "desc"

structure SearchOptions where
  query : Option Query
  tags : List String
  excludedTags : List String
  pathStart : Option String
  excludedPaths : List String
  createdAfter : Option Time.Instant
  createdBefore : Option Time.Instant
  modifiedAfter : Option Time.Instant
  modifiedBefore : Option Time.Instant
  metadata : List (String × String)
  sortField : SortField
  sortDirection : SortDirection
  limit : Nat
  offset : Nat
  deriving Inhabited

namespace SearchOptions

/-- The options that select everything, best match first. -/
def empty : SearchOptions :=
  ⟨none, [], [], none, [], none, none, none, none, [], .relevance, .descending, 0, 0⟩

def defaultLimit : Nat :=
  100

def effectiveLimit (options : SearchOptions) : Nat :=
  if options.limit == 0 then defaultLimit else options.limit

/-- Whether the options select everything because nothing is asked for. -/
def isEmpty (options : SearchOptions) : Bool :=
  options.query.all Query.isEmpty && options.tags.isEmpty && options.excludedTags.isEmpty &&
    options.pathStart.all String.isEmpty && options.excludedPaths.isEmpty &&
    options.createdAfter.isNone && options.createdBefore.isNone &&
    options.modifiedAfter.isNone && options.modifiedBefore.isNone && options.metadata.isEmpty

def withMetadata (options : SearchOptions) (key value : String) : SearchOptions :=
  { options with metadata := setEntry key value options.metadata }

end SearchOptions

end Commonplace
