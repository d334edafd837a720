import RecordStore.Text.CharClass

/-!
# Tables

The store has a fixed set of nine tables. Their order is the order in which they are written.

## Main results

- `mem_all`: `all` lists every table.
- `ofName?_name`: a table is found by its name.
- `index_injective`: the position in `all` tells tables apart.
-/

namespace RecordStore

/-- A table of the store. -/
inductive Table where
  | users
  | communities
  | communityMembers
  | proposals
  | proposalVotes
  | posts
  | pledges
  | comments
  | sessions
  deriving DecidableEq, Inhabited, Repr

namespace Table

/-- Every table, in written order. -/
def all : List Table :=
  [users, communities, communityMembers, proposals, proposalVotes, posts, pledges, comments,
    sessions]

/-- The name of a table in statements and in the store document. -/
def name : Table → String
  | users => "users"
  | communities => "communities"
  | communityMembers => "community_members"
  | proposals => "proposals"
  | proposalVotes => "proposal_votes"
  | posts => "posts"
  | pledges => "pledges"
  | comments => "comments"
  | sessions => "sessions"

/-- The position of a table in `all`. -/
def index : Table → Fin 9
  | users => 0
  | communities => 1
  | communityMembers => 2
  | proposals => 3
  | proposalVotes => 4
  | posts => 5
  | pledges => 6
  | comments => 7
  | sessions => 8

/-- The table of a name, whatever the case of its letters. -/
def ofName? (s : String) : Option Table := all.find? fun t => Text.sameFolded t.name s

/-- The table with exactly this name. -/
def ofExactName? (s : String) : Option Table := all.find? fun t => t.name == s

theorem mem_all (t : Table) : t ∈ all := by cases t <;> decide

theorem index_injective {t u : Table} (h : t.index = u.index) : t = u := by
  revert h
  cases t <;> cases u <;> decide

theorem ofName?_name (t : Table) : ofName? t.name = some t := by cases t <;> decide

end Table

end RecordStore
