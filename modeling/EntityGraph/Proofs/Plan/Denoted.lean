import EntityGraph.Proofs.Draft.Aliases
import EntityGraph.Proofs.Plan.Compiled

/-!
# Which tables columns denote

Whatever is selected and resolved, in any order and with any failures in between, each column of
the draft belongs to a table that takes part in it. It belongs to one table alone exactly where
the three kinds of aliases stay apart, which the names of a schema can prevent.
-/
namespace EntityGraph.Plan

variable {m : Model} {entity : Entity m.size}

/-- What can be asked of a draft. -/
inductive Demand where
  | select (selection : List Selection)
  | resolve (path : String)

/-- Meets a demand; the columns are those that it yields and the draft does not select. -/
def Demand.drafting : Demand → Drafting m (List ColumnRef)
  | .select selection => do
    Drafting.select selection
    return []
  | .resolve path => return [(← Drafting.resolve path).column]

/-- The draft that a demand leaves behind, with the columns that it has yielded if it succeeds. -/
def meet (d : Draft m) (demand : Demand) : Draft m × List ColumnRef :=
  match demand.drafting d with
  | .ok columns d' => (d', columns)
  | .error _ d' => (d', [])

def meetAll (d : Draft m) : List Demand → Draft m × List ColumnRef
  | [] => (d, [])
  | demand :: rest =>
    let (d', columns) := meet d demand
    let (last, more) := meetAll d' rest
    (last, columns ++ more)

theorem meet_draws (d : Draft m) (demand : Demand) : d.Draws (meet d demand).1 ∧
    ∀ c ∈ (meet d demand).2, ∃ l, (meet d demand).1.Has l ∧ c.tableAlias = l.tableAlias := by
  have proper : Drafting.Proper demand.drafting d := by
    cases demand with
    | select selection => exact (Drafting.proper_select selection d).bind fun _ _ _ => .pure _
    | resolve path => exact (Drafting.proper_resolve path d).bind fun _ _ _ => .pure _
  have draws := proper.draws
  unfold meet
  unfold Drafting.after at draws
  cases outcome : demand.drafting d with
  | error e d' =>
    rw [outcome] at draws
    exact ⟨draws, List.forall_mem_nil _⟩
  | ok columns d' =>
    rw [outcome] at draws
    refine ⟨draws, fun c mem => ?_⟩
    cases demand with
    | select selection =>
      obtain ⟨-, d₁, -, last⟩ := Drafting.bind_eq_ok.mp outcome
      obtain ⟨rfl, rfl⟩ := Drafting.pure_eq_ok.mp last
      cases mem
    | resolve path =>
      obtain ⟨r, d₁, ok, last⟩ := Drafting.bind_eq_ok.mp outcome
      obtain ⟨rfl, rfl⟩ := Drafting.pure_eq_ok.mp last
      obtain ⟨l, has, -, -, column⟩ := Drafting.resolve_has ok
      rw [List.mem_singleton.mp mem, column]
      exact ⟨l, has, rfl⟩

theorem meetAll_draws (d : Draft m) (demands : List Demand) : d.Draws (meetAll d demands).1 ∧
    ∀ c ∈ (meetAll d demands).2, ∃ l, (meetAll d demands).1.Has l ∧
      c.tableAlias = l.tableAlias := by
  induction demands generalizing d with
  | nil => exact ⟨.refl, List.forall_mem_nil _⟩
  | cons demand rest ih =>
    obtain ⟨first, yields⟩ := meet_draws d demand
    obtain ⟨later, more⟩ := ih (meet d demand).1
    refine ⟨first.trans later, fun c mem => ?_⟩
    rcases List.mem_append.mp mem with early | late
    · obtain ⟨l, has, same⟩ := yields c early
      exact ⟨l, later.grows.has has, same⟩
    · exact more c late

/-- The aliases of what any demands lead to are the name of the root, the paths of the levels and
numbered names of pivots. No two paths are equal and no two numbered names; all aliases are
different exactly where no name of one kind is one of another. Every column, also one that a path
has been resolved to, is one of a table of the statement, and all are columns of one table alone
exactly where all aliases are different. -/
theorem columns_denote_iff {schema : Schema} {options : ModelOptions}
    (built : Model.build schema options = .ok m) (known : entity ∈ m.entities)
    (demands : List Demand) {d : Draft m} {yielded : List ColumnRef}
    (met : meetAll (Draft.start m entity) demands = (d, yielded)) :
    d.statement.tableAlias = entity.table ∧ (d.levels.map (·.path)).Nodup ∧
    ∃ tables : List String, tables.length = d.aliases ∧
      (∀ t ∈ tables, ∃ e ∈ m.entities, e.table = t) ∧ (pivotAliases tables).Nodup ∧
      d.statement.aliasNames.Perm
        (entity.table :: (d.levels.map (·.path) ++ pivotAliases tables)) ∧
      (d.statement.aliasNames.Nodup ↔ entity.table ∉ d.levels.map (·.path) ∧
        entity.table ∉ pivotAliases tables ∧
          ∀ path ∈ d.levels.map (·.path), path ∉ pivotAliases tables) ∧
      (∀ c ∈ d.statement.columns ++ yielded, c.tableAlias ∈ d.statement.aliasNames) ∧
      ((∀ c ∈ d.statement.columns ++ yielded, d.statement.Denotes c) ↔
        d.statement.aliasNames.Nodup) := by
  obtain ⟨draws, yields⟩ := meetAll_draws (Draft.start m entity) demands
  rw [met] at draws yields
  have grown : d.Grown entity := draws.grows
  have mirrors := Model.build_mirrors built
  obtain ⟨tables, count, pivots, perm⟩ := grown.exists_pivots
  have inside : ∀ c ∈ d.statement.columns ++ yielded,
      c.tableAlias ∈ d.statement.aliasNames := by
    intro c mem
    rcases List.mem_append.mp mem with own | late
    · exact draws.alias_mem own
    · obtain ⟨l, has, same⟩ := yields c late
      exact same ▸ grown.alias_mem has
  refine ⟨grown.tableAlias_eq, grown.paths_nodup, tables, count, pivots, pivotAliases_nodup tables,
    perm, grown.aliasNames_nodup_iff perm, inside, fun denotes => ?_, fun distinct c mem =>
    Statement.denotes_of_nodup distinct (inside c mem)⟩
  -- every join has a column of its own table, so its alias stands for no other one
  have ofJoin : ∀ j ∈ d.statement.joins, d.statement.aliasNames.count j.tableAlias = 1 := by
    intro j mem
    obtain ⟨parent, field, link, has, links, -, joins⟩ := grown.exists_joins mem
    obtain ⟨table, -, mirror⟩ := grown.link_mirrors known mirrors has links
    obtain ⟨c, column, same⟩ := joins.exists_column mirror
    have own := grown.mem_columns.mpr (Or.inr ⟨j, mem, column⟩)
    exact same ▸ denotes c (List.mem_append_left _ own)
  rw [List.nodup_iff_count_eq_one]
  intro name mem
  rcases List.mem_cons.mp mem with rfl | joined
  · by_cases again : d.statement.tableAlias ∈ d.statement.joins.map (·.tableAlias)
    · obtain ⟨j, inJoins, same⟩ := List.mem_map.mp again
      exact same ▸ ofJoin j inJoins
    · rw [Statement.aliasNames, List.count_cons_self, List.count_eq_zero_of_not_mem again]
  · obtain ⟨j, inJoins, rfl⟩ := List.mem_map.mp joined
    exact ofJoin j inJoins

theorem columns_denote_iff_of_library : ∃ d yielded,
    meetAll (Draft.start libraryModel libraryAuthors)
      [.select librarySelection, .resolve "books.authors.name", .resolve "books.pages"] =
        (d, yielded) ∧
      yielded = [⟨"books.authors", "name"⟩] ∧
      ∀ c ∈ d.statement.columns ++ yielded, d.statement.Denotes c := by
  refine ⟨_, _, rfl, rfl, ?_⟩
  obtain ⟨-, -, tables, -, -, -, -, -, -, denotes⟩ := @columns_denote_iff libraryModel
    libraryAuthors librarySchema storeNames rfl (libraryModel.get_mem _)
    [.select librarySelection, .resolve "books.authors.name", .resolve "books.pages"] _ _ rfl
  exact denotes.mpr (by decide +kernel)

/-! ## Members of clubs -/

/-- Members belong to clubs over a pivot. The name of their table is the one that the pivot is
given where it is joined first. -/
def clubsSchema : Schema where
  tables := [
    { name := "member_1"
      columns := [
        { name := "id", kind := .integer, nullable := false, primaryKey := true },
        { name := "name", kind := .string }] },
    { name := "clubs"
      columns := [
        { name := "id", kind := .integer, nullable := false, primaryKey := true },
        { name := "title", kind := .string }] },
    { name := "member"
      columns := [
        { name := "person", kind := .integer, nullable := false, primaryKey := true },
        { name := "club", kind := .integer, nullable := false, primaryKey := true }]
      foreignKeys := [
        ⟨"member", ["person"], "member_1", ["id"]⟩,
        ⟨"member", ["club"], "clubs", ["id"]⟩] }]

def clubsModel : Model :=
  (Model.build clubsSchema storeNames).toOption.getD .empty

def clubsMembers : Entity clubsModel.size :=
  clubsModel.get ⟨0, by decide⟩

/-- The clubs of a member are joined under an alias that stands for the members as well, so the
key of a member is matched with itself. -/
theorem member_and_pivot_share_an_alias : Model.build clubsSchema storeNames = .ok clubsModel ∧
    clubsMembers ∈ clubsModel.entities ∧ ∃ d,
      meetAll (Draft.start clubsModel clubsMembers) [.select [⟨"clubs", [⟨"title", []⟩]⟩]] =
        (d, []) ∧
      d.statement.tableAlias = "member_1" ∧
      d.statement.joins = [
        ⟨.leftOuter, "member", "member_1", [(⟨"member_1", "id"⟩, "person")]⟩,
        ⟨.leftOuter, "clubs", "clubs", [(⟨"member_1", "club"⟩, "id")]⟩] ∧
      ¬ d.statement.aliasNames.Nodup ∧ ∃ c ∈ d.statement.columns, ¬ d.statement.Denotes c :=
  ⟨rfl, clubsModel.get_mem _, _, rfl, rfl, by decide +kernel, by decide +kernel,
    ⟨"member_1", "id"⟩, by decide +kernel, by decide +kernel⟩

end EntityGraph.Plan
