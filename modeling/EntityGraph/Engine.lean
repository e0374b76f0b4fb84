import EntityGraph.Plan
import EntityGraph.Statement.Text
import EntityGraph.Tree.Nesting

/-!
# The engine

A request is planned, sent to the store as one statement, and answered from the rows that come
back. A request that cannot be planned never reaches the store. What else the store does when
it is asked is up to the monad `μ`.
-/
namespace EntityGraph

structure Store (μ : Type → Type) where
  dialect : Dialect
  /-- Runs a statement; a failure is passed on as it is. -/
  fetch : Statement.Rendered → μ (Except Error RowSet)

/-- A store's failure may be no more than a text. -/
instance : Coe String Error := ⟨Error.store⟩

structure Engine where
  model : Model
  config : Config

namespace Engine

variable {μ : Type → Type} [Monad μ]

/-- Sends a statement to the store and reads what comes back. -/
def ask {ε α : Type} [MonadLiftT (Except Error) (Except ε)] (store : Store μ) (s : Statement)
    (read : RowSet → Except Error α) : μ (Except ε α) := do
  let answer ← store.fetch (s.render store.dialect)
  return liftM (answer >>= read)

/-- The only node among those found; there may be none. -/
def readFind {m : Model} (entity : Entity m.size) (key : Json) (rows : RowSet) :
    Except Error (Option (List (String × Json))) :=
  match Nesting.records m entity rows with
  | [] => .ok none
  | first :: rest => do
    let r ← first
    if rest.isEmpty then return some r.node
    else .error (.cardinality (.lookup entity.name key.write))

/-- Looks up one node by primary key. -/
def find (e : Engine) (store : Store μ) (entity : String) (key : Json)
    (selection : List Selection) : μ (Except Error (Option (List (String × Json)))) :=
  match e.model.entity entity with
  | .error err => pure (.error err)
  | .ok entity =>
    match Plan.find e.model entity key selection with
    | .error err => pure (.error err)
    | .ok statement => ask store statement (readFind entity key)

/-- The page that the rows make up, if every node can be read. -/
def readList {m : Model} (entity : Entity m.size) (plan : ListPlan) (rows : RowSet) :
    Except Error Connection := do
  let records ← (Nesting.records m entity rows).mapM id
  return plan.page.finish records

/-- Lists one page. -/
def list (e : Engine) (store : Store μ) (entity : String) (selection : List Selection)
    (params : Params) : μ (Except Fault Connection) :=
  match e.model.entity entity with
  | .error err => pure (.error (.error err))
  | .ok entity =>
    match Plan.list e.model entity selection params e.config with
    | .error fault => pure (.error fault)
    | .ok plan => ask store plan.statement (readList entity plan)

/-- The answer to a lookup as a document. -/
def findAnswer (node : Option (List (String × Json))) : Json :=
  .object [("output", match node with
    | some members => .object members
    | none => .null)]

/-- The answer to a list request as a document. -/
def listAnswer (c : Connection) : Json :=
  .object [("output", c.toJson)]

end Engine

end EntityGraph
