import Mathlib.Data.List.Perm.Basic
import EntityGraph.Schema.Link

/-!
# When two keys are the same

A key means its pairs: a row leads to another one where every local column equals the foreign
column that it is paired with. Two keys count as the same key, though, if they have the same
columns on each side. It is shown that this leaves open how the columns are paired, and that
nothing gets lost by it exactly for keys in which no two pairs differ on both sides.
-/
namespace EntityGraph

namespace ForeignKey

/-- The columns that a key matches, pair by pair. -/
def pairs (k : ForeignKey) : List (String × String) :=
  k.columns.zip k.foreignColumns

/-- Whether a key has as many columns on one side as on the other. -/
def Even (k : ForeignKey) : Prop :=
  k.columns.length = k.foreignColumns.length

/-- Whether two keys match the same pairs between the same tables. -/
structure SamePairs (a b : ForeignKey) : Prop where
  table : a.table = b.table
  foreignTable : a.foreignTable = b.foreignTable
  pairs : a.pairs.Perm b.pairs

/-- The key with other foreign columns for its local ones. -/
def paired (k : ForeignKey) (foreign : List String) : ForeignKey :=
  { k with foreignColumns := foreign }

/-- Whether a key matches what another one would with its columns paired in some way. -/
def Rearranges (a k : ForeignKey) : Prop :=
  ∃ foreign, foreign.Perm k.foreignColumns ∧ a.SamePairs (k.paired foreign)

/-- Whether no two pairs of a key differ on both sides. -/
def Straight (k : ForeignKey) : Prop :=
  ∀ p ∈ k.pairs, ∀ q ∈ k.pairs, p.1 = q.1 ∨ p.2 = q.2

instance (k : ForeignKey) : Decidable k.Even :=
  inferInstanceAs (Decidable (_ = _))

instance (k : ForeignKey) : Decidable k.Straight :=
  inferInstanceAs (Decidable (∀ p ∈ k.pairs, ∀ q ∈ k.pairs, p.1 = q.1 ∨ p.2 = q.2))

variable {a b k : ForeignKey}

theorem Even.firsts (even : k.Even) : k.pairs.map Prod.fst = k.columns :=
  List.map_fst_zip (Nat.le_of_eq even)

theorem Even.seconds (even : k.Even) : k.pairs.map Prod.snd = k.foreignColumns :=
  List.map_snd_zip (Nat.le_of_eq even.symm)

theorem Even.paired (even : k.Even) {foreign : List String}
    (perm : foreign.Perm k.foreignColumns) : (k.paired foreign).Even :=
  Eq.trans even perm.length_eq.symm

theorem sameKey_iff : a.sameKey b = true ↔ a.table = b.table ∧ a.foreignTable = b.foreignTable ∧
    a.columns.Perm b.columns ∧ a.foreignColumns.Perm b.foreignColumns := by
  simp [sameKey, sameColumns, List.isPerm_iff, and_assoc]

theorem sameKey_comm (a b : ForeignKey) : a.sameKey b = b.sameKey a := by
  have turned : ∀ a b : ForeignKey, a.sameKey b = true → b.sameKey a = true := by
    intro a b same
    obtain ⟨table, foreignTable, columns, foreignColumns⟩ := sameKey_iff.mp same
    exact sameKey_iff.mpr ⟨table.symm, foreignTable.symm, columns.symm, foreignColumns.symm⟩
  exact Bool.eq_iff_iff.mpr ⟨turned a b, turned b a⟩

/-! ## Columns paired in some way -/

/-- Pairs can be brought into any order of what stands on the left. -/
theorem exists_arranged {ps : List (String × String)} {firsts : List String}
    (perm : firsts.Perm (ps.map Prod.fst)) :
    ∃ qs : List (String × String), qs.Perm ps ∧ qs.map Prod.fst = firsts := by
  have here : List.Forall₂ (fun c p => c = p.1) (ps.map Prod.fst) ps :=
    List.forall₂_map_left_iff.mpr (List.forall₂_same.mpr fun _ _ => rfl)
  obtain ⟨qs, arranged, permQ⟩ := List.perm_comp_forall₂ perm here
  have same : List.Forall₂ Eq firsts (qs.map Prod.fst) := List.forall₂_map_right_iff.mpr arranged
  rw [List.forall₂_eq_eq_eq] at same
  exact ⟨qs, permQ, same.symm⟩

/-- Pairs made of the columns of a key are pairs of that key with its columns paired otherwise. -/
theorem exists_paired {ps : List (String × String)}
    (firsts : (ps.map Prod.fst).Perm k.columns)
    (seconds : (ps.map Prod.snd).Perm k.foreignColumns) :
    ∃ foreign, foreign.Perm k.foreignColumns ∧ (k.paired foreign).pairs.Perm ps := by
  obtain ⟨qs, perm, columns⟩ := exists_arranged firsts.symm
  refine ⟨qs.map Prod.snd, (perm.map _).trans seconds, ?_⟩
  have whole : (k.paired (qs.map Prod.snd)).pairs = qs := by
    change k.columns.zip (qs.map Prod.snd) = qs
    rw [← columns, ← List.unzip_fst, ← List.unzip_snd, List.zip_unzip]
  rwa [whole]

theorem SamePairs.sides (same : a.SamePairs b) (evenA : a.Even) (evenB : b.Even) :
    a.columns.Perm b.columns ∧ a.foreignColumns.Perm b.foreignColumns := by
  rw [← evenA.firsts, ← evenB.firsts, ← evenA.seconds, ← evenB.seconds]
  exact ⟨same.pairs.map _, same.pairs.map _⟩

/-- The same key is one with the same columns on each side, paired in whatever way. -/
theorem sameKey_iff_rearranges (evenA : a.Even) (evenK : k.Even) :
    a.sameKey k = true ↔ a.Rearranges k := by
  rw [sameKey_iff]
  constructor
  · rintro ⟨table, foreignTable, columns, foreignColumns⟩
    obtain ⟨foreign, perm, pairs⟩ := @exists_paired k a.pairs
      (by rwa [evenA.firsts]) (by rwa [evenA.seconds])
    exact ⟨foreign, perm, table, foreignTable, pairs.symm⟩
  · rintro ⟨foreign, perm, same⟩
    obtain ⟨columns, foreignColumns⟩ := same.sides evenA (evenK.paired perm)
    exact ⟨same.table, same.foreignTable, columns, foreignColumns.trans perm⟩

theorem SamePairs.rearranges (same : a.SamePairs k) : a.Rearranges k :=
  ⟨k.foreignColumns, .refl _, same⟩

/-! ## Keys that can be paired in one way only -/

/-- In a straight key all columns of one side are the same column. -/
theorem Straight.cases (straight : k.Straight) :
    (∃ c, ∀ p ∈ k.pairs, p.1 = c) ∨ ∃ c, ∀ p ∈ k.pairs, p.2 = c := by
  by_cases level : ∃ p ∈ k.pairs, ∃ q ∈ k.pairs, p.1 ≠ q.1
  · obtain ⟨p, memP, q, memQ, apart⟩ := level
    have right : p.2 = q.2 := (straight p memP q memQ).resolve_left apart
    refine Or.inr ⟨p.2, fun r memR => ?_⟩
    -- a third pair differs on the left from one of the two
    by_cases first : r.1 = p.1
    · have other : r.1 ≠ q.1 := fun second => apart (first.symm.trans second)
      exact ((straight r memR q memQ).resolve_left other).trans right.symm
    · exact (straight r memR p memP).resolve_left first
  · left
    cases pairs : k.pairs with
    | nil => exact ⟨"", by simp⟩
    | cons p ps =>
      refine ⟨p.1, fun q memQ => ?_⟩
      by_contra apart
      exact level ⟨q, pairs ▸ memQ, p, pairs ▸ List.mem_cons_self, apart⟩

theorem perm_of_map {α β : Type} {f : α → β} {g : β → α} {xs ys : List α}
    (backX : ∀ x ∈ xs, g (f x) = x) (backY : ∀ y ∈ ys, g (f y) = y)
    (perm : (xs.map f).Perm (ys.map f)) : xs.Perm ys := by
  have rebuilt : ∀ zs : List α, (∀ z ∈ zs, g (f z) = z) → (zs.map f).map g = zs := by
    intro zs back
    rw [List.map_map]
    exact (List.map_congr_left back).trans (List.map_id' zs)
  rw [← rebuilt xs backX, ← rebuilt ys backY]
  exact perm.map g

/-- However the columns of a straight key are paired, the pairs are the same. -/
theorem Straight.perm (straight : k.Straight) (even : k.Even) {foreign : List String}
    (perm : foreign.Perm k.foreignColumns) : (k.paired foreign).pairs.Perm k.pairs := by
  have firsts : ((k.paired foreign).pairs.map Prod.fst).Perm (k.pairs.map Prod.fst) := by
    rw [(even.paired perm).firsts, even.firsts]
    exact .refl _
  have seconds : ((k.paired foreign).pairs.map Prod.snd).Perm (k.pairs.map Prod.snd) := by
    rw [(even.paired perm).seconds, even.seconds]
    exact perm
  rcases straight.cases with ⟨c, left⟩ | ⟨c, right⟩
  · refine perm_of_map (g := (c, ·)) (fun p mem => ?_) (fun p mem => ?_) seconds
    · obtain ⟨q, memQ, same⟩ := List.mem_map.mp (firsts.subset (List.mem_map_of_mem mem))
      exact Prod.ext ((left q memQ).symm.trans same) rfl
    · exact Prod.ext (left p mem).symm rfl
  · refine perm_of_map (g := (·, c)) (fun p mem => ?_) (fun p mem => ?_) firsts
    · obtain ⟨q, memQ, same⟩ := List.mem_map.mp (seconds.subset (List.mem_map_of_mem mem))
      exact Prod.ext rfl ((right q memQ).symm.trans same)
    · exact Prod.ext rfl (right p mem).symm

/-- Two pairs that differ on both sides can be crossed. -/
theorem exists_crossed (crooked : ¬ k.Straight) (even : k.Even) :
    ∃ foreign, foreign.Perm k.foreignColumns ∧ ¬ (k.paired foreign).pairs.Perm k.pairs := by
  simp only [Straight, not_forall, not_or] at crooked
  obtain ⟨p, memP, q, memQ, left, right⟩ := crooked
  have other : p ≠ q := fun same => left (congrArg Prod.fst same)
  obtain ⟨ps, permP⟩ : ∃ ps, k.pairs.Perm (p :: q :: ps) := by
    have later : q ∈ k.pairs.erase p := (List.mem_erase_of_ne other.symm).mpr memQ
    exact ⟨_, (List.perm_cons_erase memP).trans ((List.perm_cons_erase later).cons p)⟩
  have firsts : (((p.1, q.2) :: (q.1, p.2) :: ps).map Prod.fst).Perm k.columns := by
    rw [← even.firsts]
    exact (permP.map Prod.fst).symm
  have seconds : (((p.1, q.2) :: (q.1, p.2) :: ps).map Prod.snd).Perm k.foreignColumns := by
    rw [← even.seconds]
    exact (List.Perm.swap ..).trans (permP.map Prod.snd).symm
  obtain ⟨foreign, perm, crossed⟩ := exists_paired firsts seconds
  refine ⟨foreign, perm, fun same => ?_⟩
  -- the crossed pair is once more among the crossed pairs than among those of the key
  have count := ((crossed.symm.trans same).trans permP).count_eq (p.1, q.2)
  have first : (p == (p.1, q.2)) = false := beq_false_of_ne fun h => right (Prod.ext_iff.mp h).2
  have second : (q == (p.1, q.2)) = false :=
    beq_false_of_ne fun h => left (Prod.ext_iff.mp h).1.symm
  have third : ((q.1, p.2) == (p.1, q.2)) = false :=
    beq_false_of_ne fun h => right (Prod.ext_iff.mp h).2
  simp only [List.count_cons, first, second, third, beq_self_eq_true, if_true,
    Bool.false_eq_true, if_false] at count
  omega

/-! ## Same keys -/

/-- Two keys with as many columns on one side as on the other are the same key if one of them has
the pairs of the other with its columns paired in some way, so also if they have the same pairs.
Only for a key in which no two pairs differ on both sides are these all. On from a pivot, the keys
that are left out are those that are the same as the key by which it is found. -/
theorem sameKey_leaves_pairing_open (even : k.Even) :
    (∀ a : ForeignKey, a.Even → (a.sameKey k = true ↔ a.Rearranges k)) ∧
    (∀ a : ForeignKey, a.Even → a.SamePairs k → a.sameKey k = true) ∧
    ((∀ a : ForeignKey, a.Even → (a.sameKey k = true ↔ a.SamePairs k)) ↔ k.Straight) ∧
    ∀ (s : Schema) (pivot : Table) (a : ForeignKey), a.Even →
      (a ∈ Schema.ownKeys pivot [k] ↔ a ∈ pivot.foreignKeys ∧ ¬ a.Rearranges k) ∧
      (a ∈ s.keysBack pivot [k] ↔ a ∈ s.reverseKeys pivot.name ∧ ¬ a.Rearranges k) := by
  have same : ∀ a : ForeignKey, a.Even → (a.sameKey k = true ↔ a.Rearranges k) :=
    fun a evenA => sameKey_iff_rearranges evenA even
  refine ⟨same, fun a evenA pairs => (same a evenA).mpr pairs.rearranges,
    ⟨fun only => ?_, fun straight a evenA => ?_⟩, fun s pivot a evenA => ?_⟩
  · by_contra crooked
    obtain ⟨foreign, perm, apart⟩ := exists_crossed crooked even
    have evenP := even.paired perm
    exact apart ((only _ evenP).mp ((same _ evenP).mpr ⟨foreign, perm, rfl, rfl, .refl _⟩)).pairs
  · rw [same a evenA]
    refine ⟨fun ⟨foreign, perm, pairs⟩ => ?_, SamePairs.rearranges⟩
    exact ⟨pairs.table, pairs.foreignTable, pairs.pairs.trans (straight.perm even perm)⟩
  · have ignored : Schema.isIgnored [k] a = true ↔ a.Rearranges k := by
      rw [← same a evenA, Schema.isIgnored, List.any_cons, List.any_nil, Bool.or_false,
        sameKey_comm]
    rw [← ignored, Schema.ownKeys, Schema.keysBack, List.mem_filter, List.mem_filter]
    simp

/-! ## Squares of a board and their mirror images -/

/-- The key of a table of mirrors to the square where the mirror stands. -/
def mirrorSquare : ForeignKey :=
  ⟨"mirrors", ["file", "rank"], "squares", ["file", "rank"]⟩

/-- The key to the square that is seen in the mirror, for which file and rank are swapped. -/
def mirrorImage : ForeignKey :=
  ⟨"mirrors", ["file", "rank"], "squares", ["rank", "file"]⟩

theorem sameKey_leaves_pairing_open_of_mirrors :
    mirrorSquare.Even ∧ mirrorImage.Rearranges mirrorSquare ∧ ¬ mirrorSquare.Straight ∧
      ∀ pivot : Table, mirrorImage ∉ Schema.ownKeys pivot [mirrorSquare] := by
  have even : mirrorSquare.Even := by decide
  obtain ⟨same, -, -, left⟩ := sameKey_leaves_pairing_open even
  have rearranges : mirrorImage.Rearranges mirrorSquare := (same _ (by decide)).mp (by decide)
  refine ⟨even, rearranges, by decide, fun pivot kept => ?_⟩
  exact ((left ⟨[]⟩ pivot mirrorImage (by decide)).1.mp kept).2 rearranges

def boardTables (keys : List ForeignKey) : List Table :=
  let columns : List Column := [
    { name := "file", kind := .integer, nullable := false, primaryKey := true },
    { name := "rank", kind := .integer, nullable := false, primaryKey := true }]
  [{ name := "squares", columns := columns },
    { name := "mirrors", columns := columns, foreignKeys := keys }]

/-- The two keys match other pairs and still are the same key. So mirrors lead on from a square
neither to the square itself nor to its image, although they are a pivot with a key for each. -/
theorem sameKey_of_crossed_keys :
    mirrorImage.Even ∧ mirrorSquare.Even ∧ mirrorImage.sameKey mirrorSquare = true ∧
      ¬ mirrorImage.SamePairs mirrorSquare ∧
      ∃ links, Schema.tableLinks ⟨boardTables [mirrorSquare, mirrorImage]⟩ "squares" [] =
          .ok links ∧
        (∀ t ∈ boardTables [mirrorSquare, mirrorImage], t.name = "mirrors" → t.isPivot = true) ∧
        links.map (fun l => (l.target, l.pivot)) = [("mirrors", none), ("mirrors", none)] := by
  refine ⟨by decide, by decide, by decide, fun same => ?_, _, rfl, by decide, by decide⟩
  exact absurd same.pairs (by decide)

end ForeignKey

end EntityGraph
