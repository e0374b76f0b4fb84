import EntityGraph.Proofs.Window.Listed

/-!
# The rows around those between cursors

Whatever the cursors of a request are, the rows that pass its filters make up one list, and those
that lie between the cursors are a part of it without gaps: what is left out stands in front of
the cursor `after` or behind the cursor `before`.
-/
namespace EntityGraph

variable {m : Model}

namespace Collation

variable (κ : Collation)

/-- Tuples are in strict order, however many positions they have. -/
theorem position_lt_trans {ds : List Direction} {xs ys zs : List Value}
    (first : κ.position ds xs ys = .lt) (second : κ.position ds ys zs = .lt) :
    κ.position ds xs zs = .lt := by
  induction ds generalizing xs ys zs with
  | nil => cases first
  | cons d ds ih =>
    -- a tuple that has come to its end ties with every other
    obtain _ | ⟨x, xs⟩ := xs
    · cases first
    obtain _ | ⟨y, ys⟩ := ys
    · cases first
    obtain _ | ⟨z, zs⟩ := zs
    · cases second
    have turned := κ.transCmp_turn d id
    simp only [position, Ordering.then_eq_lt] at first second ⊢
    rcases first with less | ⟨tie, later⟩
    · rcases second with less' | ⟨tie', -⟩
      · exact Or.inl (turned.lt_trans less less')
      · exact Or.inl (turned.lt_of_lt_of_eq less tie')
    · rcases second with less' | ⟨tie', later'⟩
      · exact Or.inl (turned.lt_of_eq_of_lt tie less')
      · exact Or.inr ⟨turned.eq_trans tie tie', ih later later'⟩

end Collation

instance Entity.transCmp_ranked (e : Entity m.size) (κ : Collation) (order : List OrderClause) :
    Std.TransCmp (e.ranked κ order) := by
  induction order with
  | nil => exact { eq_swap := rfl, isLE_trans := fun _ _ => rfl }
  | cons c order ih =>
    have lex : e.ranked κ (c :: order) =
        compareLex (fun a b : Tuple => c.direction.turn
          (κ.place ((e.scalarAt? c.field).elim .null fun p => a p.2.column)
            ((e.scalarAt? c.field).elim .null fun p => b p.2.column)))
          (e.ranked κ order) := rfl
    rw [lex]
    have turned := κ.transCmp_turn c.direction
      fun t : Tuple => (e.scalarAt? c.field).elim .null fun p => t p.2.column
    infer_instance

/-- Where what holds of one holds of all that follow, those of which it does not hold come first. -/
theorem filter_append_filter {α : Type} {p : α → Bool} {xs : List α}
    (lasts : xs.Pairwise fun x y => p x = true → p y = true) :
    (xs.filter fun x => !p x) ++ xs.filter p = xs := by
  induction xs with
  | nil => rfl
  | cons x xs ih =>
    obtain ⟨here, later⟩ := List.pairwise_cons.mp lasts
    cases holds : p x with
    | false => simp [holds, ih later]
    | true =>
      have none : xs.filter (fun y => !p y) = [] :=
        List.filter_eq_nil_iff.mpr fun y mem => by simp [here y mem holds]
      have every : xs.filter p = xs := List.filter_eq_self.mpr fun y mem => here y mem holds
      simp [holds, none, every]

namespace Page

/-! ## Rows on either side of a cursor -/

section

variable (κ : Collation) (order : List OrderClause) (bound : Option (List Value))

/-- Whether a tuple lies behind a cursor, if there is one. -/
def isPast (tuple : List Value) : Bool :=
  bound.all (κ.position (order.map (·.direction)) tuple · == .gt)

/-- Whether a tuple lies in front of a cursor, if there is one. -/
def isShort (tuple : List Value) : Bool :=
  bound.all (κ.position (order.map (·.direction)) tuple · == .lt)

variable {κ order bound} {tuple : List Value}

theorem isPast_iff : isPast κ order bound tuple = true ↔
    ∀ a, bound = some a → κ.position (order.map (·.direction)) tuple a = .gt := by
  simp [isPast, Option.all_eq_true]

theorem isShort_iff : isShort κ order bound tuple = true ↔
    ∀ b, bound = some b → κ.position (order.map (·.direction)) tuple b = .lt := by
  simp [isShort, Option.all_eq_true]

theorem inside_iff {after before : Option (List Value)} : Inside κ order after before tuple ↔
    isPast κ order after tuple = true ∧ isShort κ order before tuple = true := by
  rw [Inside, isPast_iff, isShort_iff]

theorem inside_none : Inside κ order none none tuple :=
  inside_iff.mpr ⟨rfl, rfl⟩

variable {e : Entity m.size} {x y : Tuple} (less : e.ranked κ order x y = .lt)
include less

theorem isPast_of_ranked (past : isPast κ order bound (e.orderTuple order x) = true) :
    isPast κ order bound (e.orderTuple order y) = true := by
  rw [isPast_iff] at past ⊢
  intro values isBound
  have behind := past values isBound
  rw [κ.position_swap, Ordering.swap_eq_gt] at behind ⊢
  exact κ.position_lt_trans behind less

theorem isShort_of_ranked (short : isShort κ order bound (e.orderTuple order y) = true) :
    isShort κ order bound (e.orderTuple order x) = true := by
  rw [isShort_iff] at short ⊢
  exact fun values isBound => κ.position_lt_trans less (short values isBound)

end

/-! ## Lists and their parts -/

variable {db : Database} {entity : Entity m.size} {params : Params}
  {after before : Option (List Value)}

/-- Whatever a request asks for, there is a list of the rows between its cursors. -/
theorem exists_listed (plain : ∀ f ∈ entity.fields, FieldName f.name)
    (distinct : (entity.fields.map (·.name)).Nodup) (key : db.HasKey entity)
    (params : Params) (after before : Option (List Value)) :
    ∃ rows, Listed db entity params after before rows := by
  classical
  let found := (db.rows entity.table).filter fun t =>
    (∀ c ∈ params.filter, c.Admits db.collation entity t) ∧
      Inside db.collation (listOrder entity params.order) after before
        (entity.orderTuple (listOrder entity params.order) t)
  let order := planningOrder false (listOrder entity params.order)
  let sorted := found.mergeSort fun a b => (entity.ranked db.collation order a b).isLE
  have perm : sorted.Perm found := List.mergeSort_perm _ _
  have nodup : sorted.Nodup := perm.nodup_iff.mpr (key.identifies.nodup.filter _)
  have stored : ∀ t ∈ sorted, t ∈ db.rows entity.table := fun t mem =>
    (List.mem_filter.mp (perm.mem_iff.mp mem)).1
  have ordered : sorted.Pairwise fun a b => (entity.ranked db.collation order a b).isLE = true := by
    refine List.pairwise_mergeSort (fun _ _ _ => Std.TransCmp.isLE_trans) (fun a b => ?_) found
    rw [entity.ranked_swap db.collation order b a]
    cases entity.ranked db.collation order a b <;> rfl
  refine ⟨sorted, Entity.sorted_of_isLE plain distinct key stored nodup ordered, fun t => ?_⟩
  rw [perm.mem_iff, List.mem_filter, decide_eq_true_eq]

/-- The rows between two cursors stand without gaps among all that a request lists. -/
theorem Listed.exists_around {all rows : List Tuple}
    (whole : Listed db entity params none none all)
    (listed : Listed db entity params after before rows) :
    ∃ low high, all = low ++ rows ++ high ∧ (after = none → low = []) ∧
      (before = none → high = []) := by
  obtain ⟨started, isStarted⟩ : ∃ started : Tuple → Bool, ∀ t, started t =
      isPast db.collation (listOrder entity params.order) after
        (entity.orderTuple (listOrder entity params.order) t) := ⟨_, fun _ => rfl⟩
  obtain ⟨ended, isEnded⟩ : ∃ ended : Tuple → Bool, ∀ t, ended t =
      !isShort db.collation (listOrder entity params.order) before
        (entity.orderTuple (listOrder entity params.order) t) := ⟨_, fun _ => rfl⟩
  have onceStarted : all.Pairwise fun x y => started x = true → started y = true := by
    refine whole.sorted.imp fun {x y} less past => ?_
    rw [isStarted] at past ⊢
    exact isPast_of_ranked less past
  have onceEnded : all.Pairwise fun x y => ended x = true → ended y = true := by
    refine whole.sorted.imp fun {x y} less past => ?_
    rw [isEnded, Bool.not_eq_true', Bool.eq_false_iff] at past ⊢
    exact fun short => past (isShort_of_ranked less short)
  have between : ((all.filter started).filter fun t => !ended t) = rows := by
    refine Entity.eq_of_sorted (whole.sorted.sublist ?_) listed.sorted fun t => ?_
    · exact List.filter_sublist.trans List.filter_sublist
    · rw [List.mem_filter, List.mem_filter, whole.mem, listed.mem, isStarted, isEnded,
        Bool.not_not, @inside_iff _ _ _ after]
      exact ⟨fun ⟨⟨⟨row, passes, _⟩, past⟩, short⟩ => ⟨row, passes, past, short⟩,
        fun ⟨row, passes, past, short⟩ => ⟨⟨⟨row, passes, inside_none⟩, past⟩, short⟩⟩
  refine ⟨all.filter fun t => !started t, (all.filter started).filter ended, ?_, fun none => ?_,
    fun none => ?_⟩
  · rw [← between, List.append_assoc, filter_append_filter (onceEnded.sublist List.filter_sublist),
      filter_append_filter onceStarted]
  · exact List.filter_eq_nil_iff.mpr fun t _ => by simp [isStarted, isPast, none]
  · exact List.filter_eq_nil_iff.mpr fun t _ => by simp [isEnded, isShort, none]

end Page

end EntityGraph
