import EntityGraph.Proofs.Draft.Ways
import EntityGraph.Proofs.Tree.Shown

/-!
# Places in a selection

A selection has a place for its root and one behind every link that it mentions, each with its
level and all that is wanted there. The levels that are joined for a selection are at such places,
behind links that have to be crossed.
-/
namespace EntityGraph

variable {m : Model}

/-- The places of a selection, each with its level and all that is wanted there. -/
inductive Selection.At (m : Model) (root : Level m) (items : List Selection) :
    Level m → List Selection → Prop where
  | root : At m root items root items
  | behind {l : Level m} {wanted : List Selection} {field : Field m.size} {link : Link m.size} :
      At m root items l wanted → l.Links field link →
      At m root items (l.below field link) (childrenOf field.name wanted)

/-- What is crossed is behind a link that is wanted, or between its ends. -/
theorem Selection.Crosses.exists_link {e e' : Entity m.size} {items : List Selection}
    (crosses : Selection.Crosses m e items e') : ∃ item ∈ items, ∃ (f : Field m.size)
      (link : Link m.size), e.field? item.name = some f ∧ f.store = .link link ∧
        (e' = m.get link.target ∨ (∃ step, link.pivot = some step ∧ e' = m.get step.source) ∨
          Selection.Crosses m (m.get link.target) (childrenOf item.name items) e') := by
  cases crosses with
  | target mem found store _ => exact ⟨_, mem, _, _, found, store, Or.inl rfl⟩
  | pivot mem found store onward =>
    exact ⟨_, mem, _, _, found, store, Or.inr (Or.inl ⟨_, onward, rfl⟩)⟩
  | deeper mem found store below => exact ⟨_, mem, _, _, found, store, Or.inr (Or.inr below)⟩

namespace Selection.At

variable {root l l' : Level m} {items wanted wanted' : List Selection}

theorem trans (first : At m root items l wanted) (rest : At m l wanted l' wanted') :
    At m root items l' wanted' := by
  induction rest with
  | root => exact first
  | behind _ links ih => exact .behind ih links

/-- Where more is wanted, there are the same places, with more wanted there. -/
theorem mono (place : At m root items l wanted) {more : List Selection}
    (sub : ∀ item ∈ items, item ∈ more) :
    ∃ more', At m root more l more' ∧ ∀ item ∈ wanted, item ∈ more' := by
  induction place with
  | root => exact ⟨more, .root, sub⟩
  | @behind l wanted field link _ links ih =>
    obtain ⟨more', place, sub'⟩ := ih
    refine ⟨_, .behind place links, fun child mem => ?_⟩
    obtain ⟨item, inside, name, here⟩ := mem_childrenOf.mp mem
    exact mem_childrenOf.mpr ⟨item, sub' item inside, name, here⟩

theorem entity_mem (place : At m root items l wanted) (known : root.entity ∈ m.entities) :
    l.entity ∈ m.entities := by
  cases place with
  | root => exact known
  | behind => exact m.get_mem _

/-- What is crossed at a place is crossed for the selection. -/
theorem crosses (place : At m root items l wanted) {e : Entity m.size}
    (here : Selection.Crosses m l.entity wanted e) :
    Selection.Crosses m root.entity items e := by
  induction place with
  | root => exact here
  | @behind l wanted field link _ links ih =>
    obtain ⟨child, mem, -⟩ := here.exists_link
    obtain ⟨item, mem, name, -⟩ := mem_childrenOf.mp mem
    exact ih (.deeper mem (name ▸ links.1) links.2 (name ▸ here))

/-- A path leads to one place. -/
theorem unique {entity : Entity m.size} (plain : m.PlainNames) (known : entity ∈ m.entities)
    (place : At m (Level.ofRoot entity) items l wanted)
    (place' : At m (Level.ofRoot entity) items l' wanted') (same : l.path = l'.path) :
    l = l' ∧ wanted = wanted' := by
  have name : ∀ {l : Level m} {wanted : List Selection} {field : Field m.size}
      {link : Link m.size}, At m (Level.ofRoot entity) items l wanted → l.Links field link →
      Path.Plain field.name := fun place links =>
    (plain.of_field? (place.entity_mem known) links.1).plain
  induction place generalizing l' wanted' with
  | root =>
    cases place' with
    | root => exact ⟨rfl, rfl⟩
    | behind place' links' => exact absurd same.symm (Path.child_ne_empty (name place' links'))
  | behind place links ih =>
    cases place' with
    | root => exact absurd same (Path.child_ne_empty (name place links))
    | behind place' links' =>
      obtain ⟨paths, names⟩ :=
        Path.child_injective (name place links) (name place' links') same
      obtain ⟨rfl, rfl⟩ := ih place' paths
      obtain ⟨rfl, rfl⟩ := links.unique links' names
      exact ⟨rfl, rfl⟩

end Selection.At

mutual

/-- A level that is joined for a selection is behind a link that is mentioned at one of its
places, so that it has to be crossed. -/
theorem Selection.exists_at_of_levels (item : Selection) (l x : Level m) (items : List Selection)
    (mem : item ∈ items) (joined : x ∈ item.levels m l) : ∃ l' wanted field link other,
      Selection.At m l items l' wanted ∧ l'.Links field link ∧ other ∈ wanted ∧
      other.name = field.name ∧ elidedColumns? m link other.children = none ∧
      x = l'.below field link :=
  match item with
  | ⟨name, children⟩ => by
    rw [Selection.levels] at joined
    cases found : l.entity.field? name with
    | none =>
      simp only [found] at joined
      cases joined
    | some field =>
      have sameName := Entity.name_of_field? found
      simp only [found] at joined
      cases store : field.store with
      | scalar s =>
        simp only [store] at joined
        cases joined
      | link link =>
        have links : l.Links field link := ⟨sameName.symm ▸ found, store⟩
        simp only [store] at joined
        split at joined
        · cases joined
        · rename_i crossed
          rcases List.mem_cons.mp joined with rfl | deeper
          · exact ⟨l, items, field, link, _, .root, links, mem, sameName.symm,
              by simpa using crossed, rfl⟩
          · obtain ⟨l', wanted, field', link', other, place, links', inside, name', crossed',
              rfl⟩ := Selection.exists_at_of_allLevels children (l.below field link) x deeper
            have sub : ∀ child ∈ children, child ∈ childrenOf field.name items := fun child here =>
              mem_childrenOf.mpr ⟨_, mem, sameName.symm, here⟩
            obtain ⟨more, place', sub'⟩ := place.mono sub
            exact ⟨l', more, field', link', other,
              Selection.At.trans (.behind .root links) place', links', sub' other inside, name',
              crossed', rfl⟩

theorem Selection.exists_at_of_allLevels (items : List Selection) (l x : Level m)
    (joined : x ∈ Selection.allLevels m l items) : ∃ l' wanted field link other,
      Selection.At m l items l' wanted ∧ l'.Links field link ∧ other ∈ wanted ∧
      other.name = field.name ∧ elidedColumns? m link other.children = none ∧
      x = l'.below field link :=
  match items with
  | [] => by cases joined
  | item :: rest => by
    rw [Selection.allLevels] at joined
    rcases List.mem_append.mp joined with here | later
    · exact Selection.exists_at_of_levels item l x _ List.mem_cons_self here
    · obtain ⟨l', wanted, field, link, other, place, links, inside, found⟩ :=
        Selection.exists_at_of_allLevels rest l x later
      obtain ⟨more, place', sub⟩ := place.mono fun item => List.mem_cons_of_mem _
      exact ⟨l', more, field, link, other, place', links, sub other inside, found⟩

end

/-- A link of which the source holds all that is wanted is not joined for the selection. -/
theorem Selection.At.below_notMem {entity : Entity m.size} (plain : m.PlainNames)
    (known : entity ∈ m.entities) {selection wanted : List Selection} {l : Level m}
    (place : Selection.At m (Level.ofRoot entity) (entity.wanted selection) l wanted)
    {field : Field m.size} {link : Link m.size} (links : l.Links field link)
    {held : List (String × String)}
    (elided : elidedColumns? m link (childrenOf field.name wanted) = some held) :
    l.below field link ∉ Selection.allLevels m (Level.ofRoot entity) selection := by
  intro joined
  cases selection with
  | nil => cases joined
  | cons first rest =>
    obtain ⟨l', wanted', field', link', other, place', links', inside, name, crossed, same⟩ :=
      Selection.exists_at_of_allLevels _ _ _ joined
    have plainName : ∀ {l : Level m} {wanted : List Selection} {field : Field m.size}
        {link : Link m.size},
        Selection.At m (Level.ofRoot entity) (first :: rest) l wanted → l.Links field link →
        Path.Plain field.name := fun place links =>
      (plain.of_field? (place.entity_mem known) links.1).plain
    obtain ⟨paths, names⟩ := Path.child_injective (plainName place links)
      (plainName place' links') (congrArg Level.path same)
    obtain ⟨rfl, rfl⟩ := place.unique plain known place' paths
    have sub : ∀ c ∈ other.children, c ∈ childrenOf field.name wanted := fun c mem =>
      mem_childrenOf.mpr ⟨other, inside, name.trans names.symm, mem⟩
    obtain ⟨rfl, rfl⟩ := links.unique links' names
    obtain ⟨held', some⟩ := exists_elided_of_subset elided sub
    rw [crossed] at some
    cases some

end EntityGraph
