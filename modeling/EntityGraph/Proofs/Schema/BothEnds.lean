import EntityGraph.Proofs.Model.Consistent

/-!
# Links from both ends of a key

What links a table has, read off the keys of a schema: one for each key of its own, and then, for
each key of another table that leads to it, the way back to that table or over it. It is shown that
these are the links that are inferred, all of them and in this order. So a key between two tables
can be walked from either of them, and over a pivot nothing goes back along the key it is found by.
-/
namespace EntityGraph

/-- Whether tables have names of their own and every key names the table that declares it. -/
structure Schema.WellNamed (s : Schema) : Prop where
  distinct : (s.tables.map (·.name)).Nodup
  home : s.KeysAtHome

namespace Schema

variable {s : Schema}

/-! ## Schemas that have been put together -/

theorem wellNamed_empty : WellNamed ⟨[]⟩ :=
  ⟨List.nodup_nil, fun _ mem => absurd mem List.not_mem_nil⟩

theorem WellNamed.addTable (named : s.WellNamed) {t : Table}
    (home : ∀ k ∈ t.foreignKeys, k.table = t.name) : (s.addTable t).WellNamed := by
  refine ⟨Keyed.nodup_put t named.distinct, fun t' mem k declared => ?_⟩
  rcases Keyed.mem_of_mem_put mem with rfl | earlier
  · exact home k declared
  · exact named.home t' earlier k declared

/-- A schema that a store reports is one of these. -/
theorem wellNamed_of_declared {all : List Declaration} (ok : Declaration.schema all = .ok s) :
    s.WellNamed := by
  refine ⟨?_, keysAtHome_of_declared ok⟩
  obtain ⟨tables, -, last⟩ := Outcome.bind_eq_ok.mp ok
  cases last
  exact Keyed.nodup_ofList tables

theorem WellNamed.table?_of_mem (named : s.WellNamed) {t : Table} (mem : t ∈ s.tables) :
    s.table? t.name = some t :=
  Keyed.get?_of_mem named.distinct mem

/-! ## Links as the keys of a schema have them -/

/-- The step from a table along a key. -/
def along (s : Schema) (source : Table) (owner : Bool) (k : ForeignKey) : Hop where
  target := k.foreignTable
  cardinality :=
    keyCardinality source ((s.table? k.foreignTable).getD { name := k.foreignTable }) k
  key := k
  owner := owner

/-- The keys of other tables that lead to a table, each with the table that declares it. -/
def incoming (s : Schema) (t : Table) : List (Table × ForeignKey) :=
  (s.tables.filter (·.name != t.name)).flatMap fun r =>
    (r.foreignKeys.filter (·.foreignTable == t.name)).map (r, ·)

/-- The steps from a table: along its own keys, and back along those of other tables. -/
def outgoing (s : Schema) (t : Table) : List Hop :=
  t.foreignKeys.map (s.along t true) ++
    (s.incoming t).map fun (_, k) => s.along t false k.reversed

/-- The steps on from a pivot that is reached by one of its keys. -/
def onward (s : Schema) (pivot : Table) (k : ForeignKey) : List Hop :=
  if pivot.isPivot then (s.outgoing pivot).filter fun h => !k.sameKey h.key else []

/-- The links of a table by a key of another one: over it, or to it if there is nothing behind. -/
def linksOver (s : Schema) (t r : Table) (k : ForeignKey) : List TableLink :=
  let back := s.along t false k.reversed
  if s.onward r k = [] then [.ofHop back] else (s.onward r k).map (.through back)

def linksFrom (s : Schema) (t : Table) : List TableLink :=
  t.foreignKeys.map (fun k => .ofHop (s.along t true k)) ++
    (s.incoming t).flatMap fun (r, k) => s.linksOver t r k

theorem mem_incoming {t r : Table} {k : ForeignKey} : (r, k) ∈ s.incoming t ↔
    r ∈ s.tables ∧ r.name ≠ t.name ∧ k ∈ r.foreignKeys ∧ k.foreignTable = t.name := by
  simp only [incoming, List.mem_flatMap, List.mem_filter, List.mem_map, bne_iff_ne, beq_iff_eq]
  constructor
  · rintro ⟨r', ⟨mem, other⟩, k', ⟨declared, leads⟩, same⟩
    cases same
    exact ⟨mem, other, declared, leads⟩
  · rintro ⟨mem, other, declared, leads⟩
    exact ⟨r, ⟨mem, other⟩, k, ⟨declared, leads⟩, rfl⟩

theorem mem_onward {pivot : Table} {k : ForeignKey} {h : Hop} : h ∈ s.onward pivot k ↔
    pivot.isPivot = true ∧ h ∈ s.outgoing pivot ∧ k.sameKey h.key = false := by
  unfold onward
  split <;> simp [*]

theorem reverseKeys_eq (s : Schema) (t : Table) :
    s.reverseKeys t.name = (s.incoming t).map fun p => p.2.reversed := by
  rw [reverseKeys, incoming, List.filterMap_flatMap, List.map_flatMap]
  congr 1
  funext r
  rw [List.map_map, ← List.filterMap_eq_map, List.filterMap_filter]
  rfl

/-! ## Inferred links -/

theorem hop_eq_along {source : Table} {owner : Bool} {k : ForeignKey}
    (has : s.HasTable k.foreignTable) : s.hop source owner k = .ok (s.along source owner k) := by
  obtain ⟨target, found⟩ := exists_table? has
  exact hop_eq_ok.mpr ⟨target, found, by simp only [along, found, Option.getD_some]⟩

section

variable (named : s.WellNamed) (reach : s.KeysReach) {t : Table}

include reach in
theorem own_hops (mem : t ∈ s.tables) (ignore : List ForeignKey) :
    (ownKeys t ignore).mapM (s.hop t true) = .ok ((ownKeys t ignore).map (s.along t true)) :=
  Outcome.mapM_of_ok fun k kept => hop_eq_along (reach t mem k (List.mem_filter.mp kept).1)

include named in
theorem back_hops (t : Table) (ignore : List ForeignKey) :
    (s.keysBack t ignore).mapM (s.hop t false) =
      .ok ((s.keysBack t ignore).map (s.along t false)) := by
  refine Outcome.mapM_of_ok fun k kept => hop_eq_along ?_
  obtain ⟨r, memR, -, k', declared, -, rfl⟩ := mem_reverseKeys.mp (leads_back kept)
  exact ⟨r, memR, (named.home r memR k' declared).symm⟩

include named reach

/-- The single steps from a table are those along its own keys and back along those of others. -/
theorem hops_eq (mem : t ∈ s.tables) (ignore : List ForeignKey) : s.hops t ignore =
    .ok ((s.outgoing t).filter fun h => !isIgnored ignore h.key) := by
  have back : (s.incoming t).map (fun (_, k) => s.along t false k.reversed) =
      (s.reverseKeys t.name).map (s.along t false) := by
    rw [reverseKeys_eq, List.map_map]
    rfl
  rw [hops, own_hops reach mem, back_hops named, outgoing, back, List.filter_append,
    List.filter_map, List.filter_map]
  rfl

theorem linksBack_eq {r : Table} {k : ForeignKey} (leads : (r, k) ∈ s.incoming t) :
    s.linksBack t k.reversed = .ok (s.linksOver t r k) := by
  obtain ⟨memR, -, declared, -⟩ := mem_incoming.mp leads
  have home : k.table = r.name := named.home r memR k declared
  have found : s.table? k.reversed.foreignTable = some r := by
    rw [show k.reversed.foreignTable = r.name from home]
    exact named.table?_of_mem memR
  refine linksBack_eq_ok.mpr ⟨s.along t false k.reversed, r, s.onward r k,
    hop_eq_along ⟨r, memR, home.symm⟩, found, ?_, ?_⟩
  · unfold onward
    split
    · rw [hops_eq named reach memR]
      simp [isIgnored, ForeignKey.reversed]
    · rfl
  · simp only [linksOver, List.isEmpty_iff]

/-- The links that are inferred of a table are those that the keys of the schema give it. -/
theorem tableLinks_eq (mem : t ∈ s.tables) : s.tableLinks t.name [] = .ok (s.linksFrom t) := by
  have own : ownKeys t [] = t.foreignKeys := List.filter_true _
  have back : s.keysBack t [] = (s.incoming t).map fun p => p.2.reversed :=
    (List.filter_true _).trans (reverseKeys_eq s t)
  have links : (s.keysBack t []).mapM (s.linksBack t) =
      .ok ((s.incoming t).map fun (r, k) => s.linksOver t r k) := by
    rw [back, List.mapM_map]
    exact Outcome.mapM_of_ok fun p leads => linksBack_eq named reach leads
  have found := lookup_eq_ok.mpr (named.table?_of_mem mem)
  refine Outcome.bind_eq_ok.mpr ⟨t, found, Outcome.bind_eq_ok.mpr ⟨_, own_hops reach mem [],
    Outcome.bind_eq_ok.mpr ⟨_, links, ?_⟩⟩⟩
  rw [linksFrom, List.flatMap_def, List.map_map, own]
  rfl

end

/-! ## What is linked -/

variable {t r : Table} {k : ForeignKey}

theorem exists_link_back (leads : (r, k) ∈ s.incoming t) :
    ∃ l ∈ s.linksFrom t, l.key = k.reversed ∧ l.owner = false := by
  have among : ∀ l ∈ s.linksOver t r k, l ∈ s.linksFrom t := fun l mem =>
    List.mem_append_right _ (List.mem_flatMap.mpr ⟨(r, k), leads, mem⟩)
  cases onward : s.onward r k with
  | nil =>
    refine ⟨.ofHop (s.along t false k.reversed), among _ ?_, rfl, rfl⟩
    simp [linksOver, onward]
  | cons h hs =>
    refine ⟨.through (s.along t false k.reversed) h, among _ ?_, rfl, rfl⟩
    simp [linksOver, onward]

/-- A link with a second step goes over a pivot, and on from there along another key than the one
by which the pivot is found. -/
theorem exists_pivot {l : TableLink} (mem : l ∈ s.linksFrom t) {h : Hop} (step : l.pivot = some h) :
    ∃ r k, (r, k) ∈ s.incoming t ∧ l.key = k.reversed ∧ r.isPivot = true ∧
      h ∈ s.outgoing r ∧ k.sameKey h.key = false := by
  rcases List.mem_append.mp mem with own | back
  · obtain ⟨k, -, rfl⟩ := List.mem_map.mp own
    cases step
  · obtain ⟨⟨r, k⟩, leads, inside⟩ := List.mem_flatMap.mp back
    simp only [linksOver] at inside
    split at inside
    · rw [List.mem_singleton.mp inside] at step
      cases step
    · obtain ⟨h', memH, rfl⟩ := List.mem_map.mp inside
      obtain rfl := Option.some.inj step
      exact ⟨r, k, leads, rfl, mem_onward.mp memH⟩

/-- The links that are inferred of the tables of a schema are those that its keys give them. A key
between two tables has one from each end, and no second step goes back along the key of the
first. -/
theorem links_run_from_both_ends (named : s.WellNamed) (reach : s.KeysReach) :
    (∀ t ∈ s.tables, s.tableLinks t.name [] = .ok (s.linksFrom t)) ∧
    (∀ t ∈ s.tables, ∀ r ∈ s.tables, ∀ k ∈ r.foreignKeys, k.foreignTable = t.name →
      (∃ l ∈ s.linksFrom r, l.key = k ∧ l.owner = true ∧ l.pivot = none ∧ l.target = t.name) ∧
      (r.name ≠ t.name → ∃ l ∈ s.linksFrom t,
        l.key = k.reversed ∧ l.owner = false ∧ l.joinedTable = r.name)) ∧
    ∀ t ∈ s.tables, ∀ l ∈ s.linksFrom t, ∀ h, l.pivot = some h →
      ∃ r k, (r, k) ∈ s.incoming t ∧ l.key = k.reversed ∧ r.isPivot = true ∧
        h ∈ s.outgoing r ∧ k.sameKey h.key = false := by
  refine ⟨fun t mem => tableLinks_eq named reach mem,
    fun t mem r memR k declared leads => ⟨?_, fun other => ?_⟩,
    fun t _ l memL h step => exists_pivot memL step⟩
  · exact ⟨_, List.mem_append_left _ (List.mem_map_of_mem declared), rfl, rfl, rfl, leads⟩
  · obtain ⟨l, memL, key, owner⟩ :=
      exists_link_back (mem_incoming.mpr ⟨memR, other, declared, leads⟩)
    refine ⟨l, memL, key, owner, ?_⟩
    rw [TableLink.joinedTable, key]
    exact named.home r memR k declared

/-! ## Pupils and their courses, and courses and their rooms -/

open Model in
theorem links_run_from_both_ends_of_courses :
    (∃ l h r k, (coursesSchema "rooms").tableLinks "pupils" [] = .ok [l] ∧ l.pivot = some h ∧
      h.target = "courses" ∧ l.key = ForeignKey.reversed k ∧ Table.isPivot r = true ∧
      k.sameKey h.key = false) ∧
    ∃ links, (coursesSchema "rooms").tableLinks "rooms" [] = .ok links ∧ ∃ l ∈ links,
      l.key = ⟨"rooms", ["number"], "courses", ["place"]⟩ ∧ l.owner = false ∧
        l.joinedTable = "courses" := by
  have named : (coursesSchema "rooms").WellNamed := ⟨by decide, by decide⟩
  obtain ⟨links, ends, pivots⟩ := links_run_from_both_ends named (by decide)
  have pupils : (coursesSchema "rooms").tables[0] ∈ (coursesSchema "rooms").tables :=
    List.getElem_mem _
  have courses : (coursesSchema "rooms").tables[1] ∈ (coursesSchema "rooms").tables :=
    List.getElem_mem _
  have rooms : (coursesSchema "rooms").tables[3] ∈ (coursesSchema "rooms").tables :=
    List.getElem_mem _
  obtain ⟨l, h, only, step, target⟩ : ∃ l h,
      (coursesSchema "rooms").linksFrom (coursesSchema "rooms").tables[0] = [l] ∧
        l.pivot = some h ∧ h.target = "courses" := ⟨_, _, rfl, rfl, rfl⟩
  obtain ⟨r, k, -, key, pivot, -, apart⟩ := pivots _ pupils l (only ▸ List.mem_cons_self) h step
  obtain ⟨-, back⟩ := ends _ rooms _ courses _ List.mem_cons_self rfl
  exact ⟨⟨l, h, r, k, only ▸ links _ pupils, step, target, key, pivot, apart⟩,
    _, links _ rooms, back (by decide)⟩

end Schema

end EntityGraph
