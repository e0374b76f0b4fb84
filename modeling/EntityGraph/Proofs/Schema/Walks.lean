import EntityGraph.Proofs.Keyed
import EntityGraph.Proofs.Outcome
import EntityGraph.Schema.Declaration
import EntityGraph.Schema.Link

/-!
# Where inferred links lead

An inferred link runs along a key of its table or back along a key of another one, and where it
goes over a pivot, along a second key from there. What its cardinality says is said of the tables
that its steps reach: a walk is to one only where every step reaches columns that are unique
there.
-/
namespace EntityGraph

namespace Cardinality

@[simp] theorem toOne_ofSides (fromOne toOne : Bool) : (ofSides fromOne toOne).toOne = toOne := by
  cases fromOne <;> cases toOne <;> rfl

@[simp] theorem fromOne_ofSides (fromOne toOne : Bool) :
    (ofSides fromOne toOne).fromOne = fromOne := by
  cases fromOne <;> cases toOne <;> rfl

@[simp] theorem toOne_andThen (c d : Cardinality) : (c.andThen d).toOne = (c.toOne && d.toOne) := by
  simp [andThen]

@[simp] theorem fromOne_andThen (c d : Cardinality) :
    (c.andThen d).fromOne = (c.fromOne && d.fromOne) := by
  simp [andThen]

end Cardinality

/-- Whether a key joins anything: as many columns on one side as on the other, and some. -/
structure ForeignKey.Joins (k : ForeignKey) : Prop where
  some : k.columns ≠ []
  arity : k.columns.length = k.foreignColumns.length

instance (k : ForeignKey) : Decidable k.Joins :=
  decidable_of_iff (k.columns ≠ [] ∧ k.columns.length = k.foreignColumns.length)
    ⟨fun both => ⟨both.1, both.2⟩, fun joins => ⟨joins.some, joins.arity⟩⟩

theorem ForeignKey.Joins.reversed {k : ForeignKey} (joins : k.Joins) : k.reversed.Joins where
  some := by
    intro none
    have length := joins.arity
    rw [show k.foreignColumns = [] from none, List.length_nil] at length
    exact joins.some (List.length_eq_zero_iff.mp length)
  arity := joins.arity.symm

namespace Schema

variable {s : Schema}

theorem table?_eq_some {name : String} {t : Table} (h : s.table? name = some t) :
    t ∈ s.tables ∧ t.name = name :=
  ⟨Keyed.mem_of_get? h, Keyed.key_of_get? h⟩

theorem lookup_eq_ok {name : String} {t : Table} :
    s.lookup name = .ok t ↔ s.table? name = some t := by
  unfold lookup
  cases s.table? name <;> simp

/-- Whether a schema has a table of a name. -/
def HasTable (s : Schema) (name : String) : Prop :=
  ∃ t ∈ s.tables, t.name = name

theorem exists_table? {name : String} (has : s.HasTable name) : ∃ t, s.table? name = some t := by
  obtain ⟨t, mem, rfl⟩ := has
  cases found : s.table? t.name with
  | none => exact absurd rfl (Keyed.get?_eq_none.mp found t mem)
  | some t' => exact ⟨t', rfl⟩

/-- Columns that are unique in the table of a name. -/
def UniqueIn (s : Schema) (table : String) (columns : List String) : Prop :=
  ∃ t, s.table? table = some t ∧ t.isUnique columns = true

theorem mem_reverseKeys {name : String} {k : ForeignKey} : k ∈ s.reverseKeys name ↔
    ∃ t ∈ s.tables, t.name ≠ name ∧ ∃ k' ∈ t.foreignKeys, k'.foreignTable = name ∧
      k = k'.reversed := by
  simp only [reverseKeys, List.mem_filterMap, List.mem_flatMap, List.mem_filter, bne_iff_ne,
    Option.ite_none_right_eq_some, Option.some.injEq, beq_iff_eq]
  constructor
  · rintro ⟨k', ⟨t, ⟨mem, other⟩, declared⟩, leads, rfl⟩
    exact ⟨t, mem, other, k', declared, leads, rfl⟩
  · rintro ⟨t, mem, other, k', declared, leads, rfl⟩
    exact ⟨k', ⟨t, ⟨mem, other⟩, declared⟩, leads, rfl⟩

/-- Whether a key can be walked from a table: as one that the table declares, or as the reverse
of one that leads to it. -/
def Leads (s : Schema) (source : Table) (owner : Bool) (k : ForeignKey) : Prop :=
  k ∈ if owner then source.foreignKeys else s.reverseKeys source.name

/-- What holds of every declared key and of its reverse holds of every key that can be walked. -/
theorem Leads.of_declared {source : Table} (mem : source ∈ s.tables) {owner : Bool}
    {k : ForeignKey} (leads : s.Leads source owner k) {p : ForeignKey → Prop}
    (own : ∀ t ∈ s.tables, ∀ k ∈ t.foreignKeys, p k)
    (back : ∀ t ∈ s.tables, ∀ k ∈ t.foreignKeys, p k.reversed) : p k := by
  cases owner with
  | true => exact own source mem k leads
  | false =>
    obtain ⟨t, memT, -, k', declared, -, rfl⟩ := mem_reverseKeys.mp leads
    exact back t memT k' declared

theorem hop_eq_ok {source : Table} {owner : Bool} {k : ForeignKey} {h : Hop} :
    s.hop source owner k = .ok h ↔ ∃ target, s.table? k.foreignTable = some target ∧
      h = ⟨k.foreignTable, keyCardinality source target k, k, owner⟩ := by
  unfold hop
  cases found : s.lookup k.foreignTable with
  | error e =>
    have none : ∀ target, s.table? k.foreignTable ≠ some target := by
      intro target here
      rw [lookup_eq_ok.mpr here] at found
      cases found
    simp [none]
  | ok target =>
    rw [lookup_eq_ok.mp found]
    simp [eq_comm]

end Schema

/-- Whether a step is inferred from a table: it runs along a key that can be walked from there,
and its cardinality is that of the key. -/
structure Hop.Runs (s : Schema) (source : Table) (h : Hop) : Prop where
  leads : s.Leads source h.owner h.key
  target : h.target = h.key.foreignTable
  reached : ∃ target, s.table? h.target = some target ∧
    h.cardinality = Schema.keyCardinality source target h.key

/-- Where all declared keys join something, so do those that steps run along. -/
theorem Hop.Runs.joins {s : Schema} {source : Table} {h : Hop} (runs : h.Runs s source)
    (mem : source ∈ s.tables) (join : ∀ t ∈ s.tables, ∀ k ∈ t.foreignKeys, k.Joins) :
    h.key.Joins :=
  runs.leads.of_declared mem join fun t memT k declared => (join t memT k declared).reversed

/-- How links are inferred from a table: from one step, or from a step back over a key and
another one from the table that declares it. -/
inductive TableLink.Inferred (s : Schema) (source : Table) : TableLink → Prop
  | direct {h : Hop} (runs : h.Runs s source) : Inferred s source (.ofHop h)
  | through {first second : Hop} {pivot : Table} (runs : first.Runs s source)
      (back : first.owner = false) (reached : s.table? first.target = some pivot)
      (onward : second.Runs s pivot) : Inferred s source (.through first second)

namespace Schema

variable {s : Schema}

theorem runs_of_hop {source : Table} {owner : Bool} {k : ForeignKey} {h : Hop}
    (ok : s.hop source owner k = .ok h) (leads : s.Leads source owner k) :
    h.Runs s source ∧ h.owner = owner := by
  obtain ⟨target, reached, rfl⟩ := hop_eq_ok.mp ok
  exact ⟨⟨leads, rfl, target, reached, rfl⟩, rfl⟩

theorem leads_own {source : Table} {ignore : List ForeignKey} {k : ForeignKey}
    (mem : k ∈ ownKeys source ignore) : s.Leads source true k :=
  (List.mem_filter.mp mem).1

theorem leads_back {source : Table} {ignore : List ForeignKey} {k : ForeignKey}
    (mem : k ∈ s.keysBack source ignore) : s.Leads source false k :=
  (List.mem_filter.mp mem).1

theorem hops_run {source : Table} {ignore : List ForeignKey} {hs : List Hop}
    (ok : s.hops source ignore = .ok hs) : ∀ h ∈ hs, h.Runs s source := by
  obtain ⟨own, ownOk, rest⟩ := Outcome.bind_eq_ok.mp ok
  obtain ⟨back, backOk, all⟩ := Outcome.bind_eq_ok.mp rest
  cases all
  intro h mem
  rcases List.mem_append.mp mem with mem | mem
  · obtain ⟨k, memK, found⟩ := Outcome.exists_of_mem_right (Outcome.mapM_eq_ok.mp ownOk) mem
    exact (runs_of_hop found (leads_own memK)).1
  · obtain ⟨k, memK, found⟩ := Outcome.exists_of_mem_right (Outcome.mapM_eq_ok.mp backOk) mem
    exact (runs_of_hop found (leads_back memK)).1

theorem linksBack_eq_ok {source : Table} {k : ForeignKey} {links : List TableLink} :
    s.linksBack source k = .ok links ↔ ∃ first pivot onward, s.hop source false k = .ok first ∧
      s.table? k.foreignTable = some pivot ∧
      (if pivot.isPivot then s.hops pivot [k.reversed] else .ok []) = .ok onward ∧
      links = if onward.isEmpty then [.ofHop first] else onward.map (.through first) := by
  have last (first : Hop) (onward : List Hop) : (if onward.isEmpty then
        (return [TableLink.ofHop first]) else return onward.map (.through first) :
        Except Error (List TableLink)) = .ok links ↔
      links = if onward.isEmpty then [.ofHop first] else onward.map (.through first) := by
    split <;> exact Outcome.pure_eq_ok.trans eq_comm
  unfold linksBack
  simp only [Outcome.bind_eq_ok, lookup_eq_ok]
  constructor
  · rintro ⟨first, firstOk, pivot, found, rest⟩
    refine ⟨first, pivot, ?_⟩
    split at rest <;> rename_i direction <;>
      obtain ⟨onward, onwardOk, rest⟩ := Outcome.bind_eq_ok.mp rest
    · exact ⟨onward, firstOk, found, (if_pos direction).trans onwardOk, (last first onward).mp rest⟩
    · exact ⟨onward, firstOk, found, (if_neg direction).trans onwardOk, (last first onward).mp rest⟩
  · rintro ⟨first, pivot, onward, firstOk, found, onwardOk, rfl⟩
    refine ⟨first, firstOk, pivot, found, ?_⟩
    split at onwardOk <;> rename_i direction
    · rw [if_pos direction]
      exact Outcome.bind_eq_ok.mpr ⟨onward, onwardOk, (last first onward).mpr rfl⟩
    · rw [if_neg direction]
      exact Outcome.bind_eq_ok.mpr ⟨onward, onwardOk, (last first onward).mpr rfl⟩

theorem linksBack_inferred {source : Table} {k : ForeignKey} {links : List TableLink}
    (leads : s.Leads source false k) (ok : s.linksBack source k = .ok links) :
    ∀ l ∈ links, l.Inferred s source := by
  obtain ⟨first, pivot, onward, firstOk, found, onwardOk, rfl⟩ := linksBack_eq_ok.mp ok
  obtain ⟨runs, back⟩ := runs_of_hop firstOk leads
  have reached : s.table? first.target = some pivot := by
    obtain ⟨_, _, rfl⟩ := hop_eq_ok.mp firstOk
    exact found
  intro l mem
  split at mem
  · rw [List.mem_singleton.mp mem]
    exact .direct runs
  · rename_i somewhere
    obtain ⟨second, memS, rfl⟩ := List.mem_map.mp mem
    split at onwardOk
    · exact .through runs back reached (hops_run onwardOk second memS)
    · cases onwardOk
      cases memS

/-- Whatever keys are ignored, the links of a table are inferred from it. -/
theorem tableLinks_inferred {table : String} {ignore : List ForeignKey} {links : List TableLink}
    (ok : s.tableLinks table ignore = .ok links) :
    ∃ source, s.table? table = some source ∧ ∀ l ∈ links, l.Inferred s source := by
  obtain ⟨source, found, rest⟩ := Outcome.bind_eq_ok.mp ok
  obtain ⟨own, ownOk, rest⟩ := Outcome.bind_eq_ok.mp rest
  obtain ⟨back, backOk, all⟩ := Outcome.bind_eq_ok.mp rest
  cases all
  refine ⟨source, lookup_eq_ok.mp found, fun l mem => ?_⟩
  rcases List.mem_append.mp mem with mem | mem
  · obtain ⟨h, memH, rfl⟩ := List.mem_map.mp mem
    obtain ⟨k, memK, hopOk⟩ := Outcome.exists_of_mem_right (Outcome.mapM_eq_ok.mp ownOk) memH
    exact .direct (runs_of_hop hopOk (leads_own memK)).1
  · obtain ⟨group, memG, inside⟩ := List.mem_flatten.mp mem
    obtain ⟨k, memK, linksOk⟩ := Outcome.exists_of_mem_right (Outcome.mapM_eq_ok.mp backOk) memG
    exact linksBack_inferred (leads_back memK) linksOk l inside

/-- Every key that a table declares gives it a link, if none is ignored. -/
theorem exists_own_link {table : String} {links : List TableLink}
    (ok : s.tableLinks table [] = .ok links) {t : Table} (found : s.table? table = some t)
    {k : ForeignKey} (declared : k ∈ t.foreignKeys) :
    s.HasTable k.foreignTable ∧ ∃ l ∈ links, l.key = k := by
  obtain ⟨source, sourceOk, rest⟩ := Outcome.bind_eq_ok.mp ok
  obtain ⟨own, ownOk, rest⟩ := Outcome.bind_eq_ok.mp rest
  obtain ⟨back, -, all⟩ := Outcome.bind_eq_ok.mp rest
  cases all
  obtain rfl := Option.some.inj ((lookup_eq_ok.mp sourceOk).symm.trans found)
  have kept : k ∈ ownKeys source [] := List.mem_filter.mpr ⟨declared, rfl⟩
  obtain ⟨h, memH, hopOk⟩ := Outcome.exists_of_mem_left (Outcome.mapM_eq_ok.mp ownOk) kept
  obtain ⟨target, reached, rfl⟩ := hop_eq_ok.mp hopOk
  exact ⟨⟨target, table?_eq_some reached⟩,
    _, List.mem_append_left _ (List.mem_map_of_mem memH), rfl⟩

/-! ## Links that can be inferred -/

/-- Whether every key names the table that declares it. -/
def KeysAtHome (s : Schema) : Prop :=
  ∀ t ∈ s.tables, ∀ k ∈ t.foreignKeys, k.table = t.name

/-- Whether every key leads to a table of the schema. -/
def KeysReach (s : Schema) : Prop :=
  ∀ t ∈ s.tables, ∀ k ∈ t.foreignKeys, s.HasTable k.foreignTable

instance (s : Schema) : Decidable s.KeysAtHome :=
  inferInstanceAs (Decidable (∀ t ∈ s.tables, ∀ k ∈ t.foreignKeys, k.table = t.name))

instance (s : Schema) : Decidable s.KeysReach :=
  inferInstanceAs (Decidable (∀ t ∈ s.tables, ∀ k ∈ t.foreignKeys,
    ∃ t' ∈ s.tables, t'.name = k.foreignTable))

/-- The keys that a store reports are at home. -/
theorem keysAtHome_of_declared {all : List Declaration}
    (ok : Declaration.schema all = .ok s) : s.KeysAtHome := by
  obtain ⟨tables, tablesOk, last⟩ := Outcome.bind_eq_ok.mp ok
  cases last
  intro t mem k declared
  obtain ⟨d, -, tableOk⟩ :=
    Outcome.exists_of_mem_right (Outcome.mapM_eq_ok.mp tablesOk) (Keyed.mem_of_mem_ofList mem)
  obtain ⟨columns, -, last⟩ := Outcome.bind_eq_ok.mp tableOk
  cases last
  obtain ⟨k', -, rfl⟩ := List.mem_map.mp (List.mem_reverse.mp declared)
  rfl

section

variable (home : s.KeysAtHome) (reach : s.KeysReach)
include home reach

theorem exists_hop {source : Table} (mem : source ∈ s.tables) {owner : Bool} {k : ForeignKey}
    (leads : s.Leads source owner k) : ∃ h, s.hop source owner k = .ok h := by
  have has : s.HasTable k.foreignTable :=
    leads.of_declared mem (p := fun k => s.HasTable k.foreignTable) reach fun t memT k declared =>
      ⟨t, memT, (home t memT k declared).symm⟩
  obtain ⟨target, found⟩ := exists_table? has
  exact ⟨_, hop_eq_ok.mpr ⟨target, found, rfl⟩⟩

theorem exists_hops {source : Table} (mem : source ∈ s.tables) (ignore : List ForeignKey) :
    ∃ hs, s.hops source ignore = .ok hs := by
  obtain ⟨own, ownOk⟩ := Outcome.exists_mapM_eq_ok fun k memK =>
    exists_hop home reach mem (leads_own memK)
  obtain ⟨back, backOk⟩ := Outcome.exists_mapM_eq_ok fun k memK =>
    exists_hop home reach mem (leads_back memK)
  exact ⟨own ++ back, Outcome.bind_eq_ok.mpr ⟨own, ownOk, Outcome.bind_eq_ok.mpr
    ⟨back, backOk, rfl⟩⟩⟩

theorem exists_linksBack {source : Table} (mem : source ∈ s.tables) {k : ForeignKey}
    (leads : s.Leads source false k) : ∃ links, s.linksBack source k = .ok links := by
  obtain ⟨first, firstOk⟩ := exists_hop home reach mem leads
  obtain ⟨pivot, found, -⟩ := hop_eq_ok.mp firstOk
  obtain ⟨onward, onwardOk⟩ : ∃ onward : List Hop,
      (if pivot.isPivot then s.hops pivot [k.reversed] else .ok []) = .ok onward := by
    split
    · exact exists_hops home reach (table?_eq_some found).1 _
    · exact ⟨[], rfl⟩
  exact ⟨_, linksBack_eq_ok.mpr ⟨first, pivot, onward, firstOk, found, onwardOk, rfl⟩⟩

/-- Links can be inferred for every table, if no key leads out of the schema. -/
theorem exists_tableLinks {t : Table} (mem : t ∈ s.tables) (ignore : List ForeignKey) :
    ∃ links, s.tableLinks t.name ignore = .ok links := by
  obtain ⟨source, found⟩ := exists_table? (s := s) ⟨t, mem, rfl⟩
  have memS := (table?_eq_some found).1
  obtain ⟨own, ownOk⟩ := Outcome.exists_mapM_eq_ok fun k memK =>
    exists_hop home reach memS (leads_own memK)
  obtain ⟨back, backOk⟩ := Outcome.exists_mapM_eq_ok fun k memK =>
    exists_linksBack home reach memS (leads_back memK)
  exact ⟨_, Outcome.bind_eq_ok.mpr ⟨source, lookup_eq_ok.mpr found, Outcome.bind_eq_ok.mpr
    ⟨own, ownOk, Outcome.bind_eq_ok.mpr ⟨back, backOk, rfl⟩⟩⟩⟩

end

end Schema

/-! ## What a link says of its walk -/

/-- What an inferred link of a table says about the walk it stands for. -/
structure TableLink.Walks (s : Schema) (t : Table) (l : TableLink) : Prop where
  owned : l.owner = true → l.pivot = none ∧ l.key ∈ t.foreignKeys
  direct : l.pivot = none → l.target = l.joinedTable
  unique : l.cardinality.toOne = true → s.UniqueIn l.joinedTable l.key.foreignColumns
  step : ∀ h, l.pivot = some h → l.target = h.target ∧
    (l.cardinality.toOne = true → s.UniqueIn h.target h.key.foreignColumns)

theorem Hop.Runs.unique {s : Schema} {source : Table} {h : Hop} (runs : h.Runs s source)
    (one : h.cardinality.toOne = true) : s.UniqueIn h.key.foreignTable h.key.foreignColumns := by
  obtain ⟨target, found, cardinality⟩ := runs.reached
  rw [cardinality, Schema.keyCardinality, Cardinality.toOne_ofSides] at one
  exact ⟨target, runs.target ▸ found, one⟩

theorem TableLink.Inferred.walks {s : Schema} {source : Table} {l : TableLink}
    (inferred : l.Inferred s source) : l.Walks s source := by
  cases inferred with
  | @direct h runs =>
    refine ⟨fun own => ⟨rfl, ?_⟩, fun _ => runs.target, runs.unique, fun h' none => ?_⟩
    · have leads := runs.leads
      rwa [show h.owner = true from own] at leads
    · cases none
  | @through first second pivot runs back reached onward =>
    have both (one : (TableLink.through first second).cardinality.toOne = true) :
        first.cardinality.toOne = true ∧ second.cardinality.toOne = true := by
      rwa [TableLink.through, Cardinality.toOne_andThen, Bool.and_eq_true] at one
    refine ⟨fun own => ?_, fun none => ?_, fun one => runs.unique (both one).1, fun h same => ?_⟩
    · cases own
    · cases none
    · cases same
      exact ⟨rfl, fun one => onward.target ▸ onward.unique (both one).2⟩

namespace Schema

theorem tableLinks_walk {s : Schema} {table : String} {links : List TableLink}
    (ok : s.tableLinks table [] = .ok links) :
    ∃ t, s.table? table = some t ∧ ∀ l ∈ links, l.Walks s t := by
  obtain ⟨source, found, inferred⟩ := tableLinks_inferred ok
  exact ⟨source, found, fun l mem => (inferred l mem).walks⟩

end Schema

end EntityGraph
