import EntityGraph.Proofs.Model.Basic
import EntityGraph.Window.Page

/-!
# Planned pages

What a page takes from a request. Planned from the far end it is the same window in the reversed
order, with its bounds exchanged.
-/
namespace EntityGraph.Page

variable {n : Nat} {entity : Entity n} {params : Params} {config : Config} {page : Page}

/-- How many rows a page keeps from the near end. -/
def keptFirst (params : Params) (config : Config) : UInt64 :=
  if isBackward params then min (params.last.getD 0) config.maxLimit
  else match params.first with
    | some first => min first config.maxLimit
    | none => config.pageSize

/-- How many rows of these a page keeps from the far end. -/
def keptLast (params : Params) (config : Config) : Option UInt64 :=
  if isBackward params then params.first.map (min · config.maxLimit)
  else params.last.map (min · config.maxLimit)

/-- The order of a page that is planned from the near end or from the far end. -/
def planningOrder (reversed : Bool) (order : List OrderClause) : List OrderClause :=
  if reversed then order.map OrderClause.reversed else order

/-- Whether a page is what a request asks for, with these bounds in the order of the list. -/
structure Planned (entity : Entity n) (params : Params) (config : Config)
    (after before : Option (List Value)) (page : Page) : Prop where
  reversed : page.reversed = isBackward params
  first : page.first = keptFirst params config
  last : page.last = keptLast params config
  order : page.cursorOrder = planningOrder page.reversed (listOrder entity params.order)
  crossOrder : page.crossOrder =
    planningOrder page.reversed (params.order.filter fun c => !Path.isRoot c.field)
  filter : page.filter = params.filter
  bounds : (page.after, page.before) = if page.reversed then (before, after) else (after, before)
  readAfter : readCursor .after params.after (listOrder entity params.order).length = .ok after
  readBefore : readCursor .before params.before (listOrder entity params.order).length = .ok before

theorem exists_planned (ok : plan entity params config = .ok page) :
    ∃ after before, page.Planned entity params config after before := by
  obtain ⟨after, readAfter, ok⟩ := Outcome.bind_eq_ok.mp ok
  obtain ⟨before, readBefore, ok⟩ := Outcome.bind_eq_ok.mp ok
  refine ⟨after, before, ?_⟩
  split at ok
  · rename_i backward
    obtain rfl := Outcome.pure_eq_ok.mp ok
    refine ⟨backward.symm, ?_, ?_, rfl, rfl, rfl, rfl, readAfter, readBefore⟩
    · simp only [keptFirst, backward, if_true]
    · simp only [keptLast, backward, if_true]
  · rename_i forward
    obtain rfl := Outcome.pure_eq_ok.mp ok
    simp only [Bool.not_eq_true] at forward
    refine ⟨forward.symm, ?_, ?_, rfl, rfl, rfl, rfl, readAfter, readBefore⟩
    · simp only [keptFirst, forward]
      rfl
    · simp only [keptLast, forward]
      rfl

/-- What is asked for is one row more than the page keeps. -/
theorem limit_eq_ok {limit : UInt64} :
    page.limit = .ok limit ↔ limit.toNat = page.first.toNat + 1 := by
  have most := limit.toNat_lt
  unfold Page.limit
  split
  · rename_i counted
    have sum : (page.first + 1).toNat = page.first.toNat + 1 := by
      rw [UInt64.toNat_add, UInt64.toNat_one, Nat.mod_eq_of_lt counted]
    rw [Except.ok.injEq, ← UInt64.toNat_inj, sum]
    exact eq_comm
  · rename_i uncounted
    simp only [UInt64.size] at uncounted
    constructor
    · intro fails
      cases fails
    · omega

/-- It is the sum as 64 bits compute it. -/
theorem eq_add_of_limit {limit : UInt64} (counted : limit.toNat = page.first.toNat + 1) :
    limit = page.first + 1 := by
  rw [← UInt64.toNat_inj, UInt64.toNat_add, UInt64.toNat_one, ← counted]
  exact (Nat.mod_eq_of_lt limit.toNat_lt).symm

/-- It cannot be asked for where the page keeps the most rows that can be counted. -/
theorem limit_eq_error {fault : Fault} :
    page.limit = .error fault ↔ fault = .overflow ∧ page.first.toNat + 1 = UInt64.size := by
  have most := page.first.toNat_lt
  unfold Page.limit
  split
  · constructor
    · intro fails
      cases fails
    · omega
  · rw [Except.error.injEq]
    refine ⟨fun same => ⟨same.symm, ?_⟩, fun both => both.1.symm⟩
    simp only [UInt64.size] at *
    omega

/-- What is planned depends on the filters only in that it has them. -/
theorem plan_filter (filters : List FilterClause) :
    plan entity { params with filter := filters } config =
      (fun p : Page => { p with filter := filters }) <$> plan entity params config := by
  have backward : isBackward { params with filter := filters } = isBackward params := rfl
  unfold plan
  rw [backward]
  dsimp only
  cases readCursor .after params.after (listOrder entity params.order).length with
  | error e => rfl
  | ok after =>
    cases readCursor .before params.before (listOrder entity params.order).length with
    | error e => rfl
    | ok before => cases isBackward params <;> rfl

/-! ## The order of a list -/

theorem key_isRoot {name : String} (plain : Path.Plain name) :
    Path.isRoot (Path.key "" name) = true := by
  refine Path.isRoot_iff.mpr (Or.inr ⟨name, ?_⟩)
  rw [Path.segments_key, Path.segments_of_undotted plain.2]

/-- All positions of a list's order are on its own table. -/
theorem isRoot_of_mem_listOrder (plain : ∀ f ∈ entity.fields, Path.Plain f.name)
    {order : List OrderClause} {c : OrderClause} (mem : c ∈ listOrder entity order) :
    Path.isRoot c.field = true := by
  rcases List.mem_append.mp mem with own | key
  · exact (List.mem_filter.mp own).2
  · obtain ⟨⟨f, s⟩, inside, rfl⟩ := List.mem_map.mp (List.mem_filter.mp key).1
    exact key_isRoot
      (plain f (Entity.mem_scalars.mp (Entity.mem_primaryKey.mp inside).1).1)

theorem mem_planningOrder {reversed : Bool} {order : List OrderClause} {c : OrderClause}
    (mem : c ∈ planningOrder reversed order) : ∃ c' ∈ order, c'.field = c.field := by
  unfold planningOrder at mem
  split at mem
  · obtain ⟨c', inside, rfl⟩ := List.mem_map.mp mem
    exact ⟨c', inside, rfl⟩
  · exact ⟨c, mem, rfl⟩

theorem planningOrder_append (reversed : Bool) (order more : List OrderClause) :
    planningOrder reversed (order ++ more) =
      planningOrder reversed order ++ planningOrder reversed more := by
  unfold planningOrder
  split
  · exact List.map_append
  · rfl

theorem map_field_planningOrder (reversed : Bool) (order : List OrderClause) :
    (planningOrder reversed order).map (·.field) = order.map (·.field) := by
  unfold planningOrder
  split
  · rw [List.map_map]
    rfl
  · rfl

theorem length_planningOrder (reversed : Bool) (order : List OrderClause) :
    (planningOrder reversed order).length = order.length := by
  unfold planningOrder
  split
  · exact List.length_map _
  · rfl

theorem Planned.isRoot {after before : Option (List Value)}
    (planned : page.Planned entity params config after before)
    (plain : ∀ f ∈ entity.fields, Path.Plain f.name) {c : OrderClause}
    (mem : c ∈ page.cursorOrder) : Path.isRoot c.field = true := by
  rw [planned.order] at mem
  obtain ⟨c', inside, same⟩ := mem_planningOrder mem
  rw [← same]
  exact isRoot_of_mem_listOrder plain inside

/-- Every clause of a list's order stays within the root or is one for its key, whatever the
fields are called. -/
theorem Planned.root_or_key {after before : Option (List Value)}
    (planned : page.Planned entity params config after before) :
    ∀ c ∈ page.cursorOrder, Path.isRoot c.field = true ∨
      (Path.segments c.field).head? = some Path.keySegment := by
  intro c mem
  rw [planned.order] at mem
  obtain ⟨c', inside, same⟩ := mem_planningOrder mem
  rw [← same]
  rcases List.mem_append.mp inside with own | key
  · exact Or.inl (List.mem_filter.mp own).2
  · obtain ⟨⟨f, s⟩, -, rfl⟩ := List.mem_map.mp (List.mem_filter.mp key).1
    exact Or.inr (by rw [Path.segments_key, List.head?_cons])

theorem Planned.crossOrder_leaves {after before : Option (List Value)}
    (planned : page.Planned entity params config after before) :
    ∀ c ∈ page.crossOrder, Path.isRoot c.field = false := by
  intro c mem
  rw [planned.crossOrder] at mem
  obtain ⟨c', inside, same⟩ := mem_planningOrder mem
  rw [← same]
  simpa using (List.mem_filter.mp inside).2

end EntityGraph.Page
