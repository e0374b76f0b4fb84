/-!
# Lists in which every entry has a key

Entries keep the place at which their key first came and the value that came last. Keys are
distinct in every list that grew by `put` alone.
-/
namespace EntityGraph.Keyed

variable {α : Type}

/-- The entry with key `k`; `key` says where an entry has its key. -/
def get? (key : α → String) (k : String) (entries : List α) : Option α :=
  entries.find? fun e => key e == k

/-- Replaces the entry with the same key, or adds one at the end. -/
def put (key : α → String) (x : α) : List α → List α
  | [] => [x]
  | e :: rest => if key e == key x then x :: rest else e :: put key x rest

/-- The entries put one after the other. -/
def ofList (key : α → String) (xs : List α) : List α :=
  xs.foldl (fun entries x => put key x entries) []

end EntityGraph.Keyed
