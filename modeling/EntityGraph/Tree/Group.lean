import EntityGraph.Store.Value

/-!
# Groups of rows

Rows with the same identity belong together. Groups come in the order in which their
identities first appear, and rows within a group in the order in which they came. An identity
that is null throughout stands for no row at all.
-/
namespace EntityGraph.Group

variable {α : Type}

/-- Adds a row to the group of its identity. -/
def add (identity : List Value) (x : α) :
    List (List Value × List α) → List (List Value × List α)
  | [] => [(identity, [x])]
  | (k, xs) :: rest =>
    if k = identity then (k, xs ++ [x]) :: rest else (k, xs) :: add identity x rest

/-- All groups, with their identities. -/
def identified (identity : α → List Value) (xs : List α) : List (List Value × List α) :=
  xs.foldl (fun groups x => add (identity x) x groups) []

/-- The groups whose identity is not null throughout. -/
def groups (identity : α → List Value) (xs : List α) : List (List α) :=
  ((identified identity xs).filter fun (k, _) => !k.all Value.isNull).map (·.2)

end EntityGraph.Group
