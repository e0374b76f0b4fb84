import EntityGraph.Proofs.Tree.Readable

/-!
# The form of a node

Whatever the rows of a result hold, a node that is read from them has the members that are
wanted of it, in the order of the first mentions. Its scalars are the documents of what one of
the rows holds in the columns that are named by the way to them, and behind its links there are
nodes of the same kind.
-/
namespace EntityGraph

open Nesting

mutual

/-- Whether members are those of a node at the end of a way, with the scalars of one row: one
member for every name that is wanted, in the order of the first mentions. -/
inductive Shaped (m : Model) (result : RowSet) :
    List String → Entity m.size → Row → List Selection → List (String × Json) → Prop where
  | node {way : List String} {e : Entity m.size} {row : Row} {items : List Selection}
      (value : String → Json) : row ∈ result.rows →
      (∀ item ∈ items, ShapedField m result (way ++ [item.name]) e row
        (childrenOf item.name items) item.name (value item.name)) →
      Shaped m result way e row items
        ((items.map (·.name)).eraseDups.map fun name => (name, value name))

/-- Whether a document is the member of a node for a field at the end of a way: the document for
a scalar, or what a link shows for the nodes behind it. -/
inductive ShapedField (m : Model) (result : RowSet) :
    List String → Entity m.size → Row → List Selection → String → Json → Prop where
  | scalar {way : List String} {e : Entity m.size} {row : Row} {items : List Selection}
      {name : String} {f : Field m.size} {s : Scalar} {i : Nat} {column : String} {v : Json} :
      e.field? name = some f → f.store = .scalar s → result.columns[i]? = some column →
      Path.segments column = way → s.decode (row.at i) = .ok v →
      ShapedField m result way e row items name v
  | absent {way : List String} {e : Entity m.size} {row : Row} {items : List Selection}
      {name : String} {f : Field m.size} {link : Link m.size} : e.field? name = some f →
      f.store = .link link → link.cardinality.toMany = false →
      ShapedField m result way e row items name .null
  | one {way : List String} {e : Entity m.size} {row : Row} {items : List Selection}
      {name : String} {f : Field m.size} {link : Link m.size} {child : Row}
      {node : List (String × Json)} : e.field? name = some f → f.store = .link link →
      link.cardinality.toMany = false → Shaped m result way (m.get link.target) child items node →
      ShapedField m result way e row items name (.object node)
  | many {way : List String} {e : Entity m.size} {row : Row} {items : List Selection}
      {name : String} {f : Field m.size} {link : Link m.size}
      {nodes : List (Row × List (String × Json))} : e.field? name = some f →
      f.store = .link link → link.cardinality.toMany = true →
      (∀ n ∈ nodes, Shaped m result way (m.get link.target) n.1 items n.2) →
      ShapedField m result way e row items name (.array (nodes.map fun n => .object n.2))

end

variable {m : Model} {e : Entity m.size} {result : RowSet} {way : List String}
  {items : List Selection}

namespace Nesting

variable {group : List Row} {row : Row} {node : List (String × Json)}

/-- Members that have been read are found again under their names. -/
theorem exists_value {slots : List (String × Slot)}
    (distinct : (slots.map Prod.fst).Nodup)
    (ok : members m e group slots = .ok node) : ∃ value : String → Json,
      node = (slots.map Prod.fst).map (fun name => (name, value name)) ∧
      ∀ name slot, (name, slot) ∈ slots → ∃ f, e.field? name = some f ∧
        member m e f group slot = .ok (value name) := by
  obtain ⟨names, each⟩ := exists_of_members_eq_ok ok
  rw [← names] at distinct
  have found : ∀ p ∈ node, (Keyed.get? Prod.fst p.1 node).elim .null Prod.snd = p.2 := by
    intro p mem
    rw [Keyed.get?_of_mem distinct mem]
    rfl
  refine ⟨fun name => (Keyed.get? Prod.fst name node).elim .null Prod.snd, ?_, ?_⟩
  · rw [← names, List.map_map]
    conv_lhs => rw [← List.map_id node]
    exact List.map_congr_left fun p mem => Prod.ext rfl (found p mem).symm
  · intro name slot mem
    obtain ⟨f, v, field, read, inside⟩ := each name slot mem
    exact ⟨f, field, read.trans (congrArg Except.ok (found _ inside).symm)⟩

/-- What a link shows for nodes of one form. -/
theorem shapedField_of_linked {f : Field m.size} {link : Link m.size} {name : String}
    (found : e.field? name = some f) (store : f.store = .link link) {children : List Json}
    {v : Json} (each : ∀ child ∈ children, ∃ row node, child = .object node ∧
      Shaped m result way (m.get link.target) row items node)
    (shown : linked e.name f.name link.cardinality.toMany children = .ok v) :
    ShapedField m result way e row items name v := by
  have nodes : ∃ nodes : List (Row × List (String × Json)),
      children = nodes.map (fun n => .object n.2) ∧
        ∀ n ∈ nodes, Shaped m result way (m.get link.target) n.1 items n.2 := by
    clear shown
    induction children with
    | nil => exact ⟨[], rfl, by simp⟩
    | cons child children ih =>
      obtain ⟨row, node, rfl, shaped⟩ := each child List.mem_cons_self
      obtain ⟨nodes, rfl, rest⟩ := ih fun child mem => each child (List.mem_cons_of_mem _ mem)
      exact ⟨(row, node) :: nodes, rfl, List.forall_mem_cons.mpr ⟨shaped, rest⟩⟩
  obtain ⟨nodes, rfl, shaped⟩ := nodes
  obtain ⟨many, rfl⟩ | ⟨one, ⟨none, rfl⟩ | single⟩ := linked_eq_ok.mp shown
  · exact .many found store many shaped
  · exact .absent found store one
  · obtain ⟨n, rfl, rfl⟩ := List.map_eq_singleton_iff.mp single
    exact .one found store one (shaped n List.mem_cons_self)

/-- A node that has been read has the form of what is wanted of it. -/
theorem shaped_of_members (plain : m.PlainNames) (n : Nat) {e : Entity m.size}
    {way : List String} {group : List Row} {row : Row} {parts : List (Option Selection)}
    {columns : List Layout.Named} {node : List (String × Json)} (known : e ∈ m.entities)
    (short : ∀ c ∈ columns, c.1.length ≤ n) (presented : Presented m e parts columns)
    (named : ∀ c ∈ columns, ∃ column, result.columns[c.2]? = some column ∧
      Path.segments column = way ++ c.1)
    (inside : ∀ row ∈ group, row ∈ result.rows) (first : group.head? = some row)
    (ok : members m e group (Layout.ofNamed columns).slots = .ok node) :
    Shaped m result way e row parts.reduceOption node := by
  induction n using Nat.strongRecOn generalizing e way group row parts columns node with
  | ind n ih =>
    have plainHere := plain e known
    obtain ⟨value, rfl, each⟩ := exists_value (Layout.names_nodup columns) ok
    rw [presented.slot_names plainHere]
    refine .node value (inside row (List.mem_of_mem_head? first)) fun item memI => ?_
    have mem := List.reduceOption_mem_iff.mp memI
    obtain ⟨field, found⟩ := (presented.fits item mem).exists_field
    cases store : field.store with
    | scalar s =>
      obtain ⟨i, memC, slot⟩ := presented.slot_scalar plainHere mem found store
      obtain ⟨f, found', read⟩ := each _ _ (Keyed.mem_of_get? slot)
      rw [found] at found'
      obtain rfl := Option.some.inj found'
      obtain ⟨column, here, segments⟩ := named _ memC
      have own : shared group i = row.at i := by
        rw [shared, List.headD_eq_head?_getD, first]
        rfl
      rw [member_scalar store, own] at read
      exact .scalar found store here segments read
    | link link =>
      have plainTarget := plain _ (m.get_mem link.target)
      have slot := presented.slot_link plainHere plainTarget found store mem
      obtain ⟨f, found', read⟩ := each _ _ (Keyed.mem_of_get? slot)
      rw [found] at found'
      obtain rfl := Option.some.inj found'
      obtain ⟨children, readAll, shown⟩ := (member_link_eq_ok store).mp read
      have positive := presented.length_pos plainHere mem short
      refine shapedField_of_linked found store (fun child memChild => ?_) shown
      obtain ⟨rows, memG, readChild⟩ :=
        Outcome.exists_of_mem_right (Outcome.mapM_eq_ok.mp readAll) memChild
      obtain ⟨node, readNode, rfl⟩ := Outcome.map_eq_ok.mp readChild
      obtain ⟨top, rest, rfl, within⟩ := Group.exists_cons_of_mem_groups memG
      refine ⟨top, node, rfl, ?_⟩
      rw [← reduceOption_partsBelow link item.name parts]
      refine ih (n - 1) (by omega) (m.get_mem _) (Layout.length_tails short)
        (presented.below plainHere plainTarget found store) ?_
        (fun row' memR => inside row' (within row' memR)) rfl readNode
      rintro ⟨names, j⟩ below
      obtain ⟨memC, -⟩ := Layout.mem_tails.mp below
      obtain ⟨column, here, segments⟩ := named _ memC
      exact ⟨column, here, by rw [segments, List.append_assoc]; rfl⟩

end Nesting

/-! ## Records -/

/-- Whether an error can come from the rows of a result: from a value for which the scalar that
the name of its column leads to has no document, or from more rows than are allowed. -/
def Error.OfRows (e : Entity m.size) (result : RowSet) (err : Error) : Prop :=
  (∃ fault, err = .codec fault ∧ ∃ row ∈ result.rows, ∃ i column,
    result.columns[i]? = some column ∧ ∃ s, e.LeadsTo (Path.segments column) s ∧
      s.decode (row.at i) = .error err) ∨
  ∃ fault, err = .cardinality fault

theorem Scalar.codec_of_decode {s : Scalar} {v : Value} {e : Error}
    (failed : s.decode v = .error e) : ∃ fault, e = .codec fault := by
  unfold decode Codec.decodeField at failed
  split at failed
  · cases failed
  · split at failed
    · cases failed
    · cases failed
      exact ⟨_, rfl⟩

namespace Nesting

variable (plain : m.PlainNames) (known : e ∈ m.entities)
  (presented : Presented m e (none :: items.map some) (Layout.named result.columns))
include plain known presented

/-- Only what rows hold can keep a record from being read. -/
theorem only_records :
    ∀ outcome ∈ records m e result, Error.Only (Error.OfRows e result) outcome := by
  intro outcome mem
  obtain ⟨longest, short⟩ := Layout.exists_longest (Layout.named result.columns)
  obtain ⟨group, memG, rfl⟩ := List.mem_map.mp mem
  obtain ⟨-, -, -, within⟩ := Group.exists_cons_of_mem_groups memG
  rw [Layout.ofColumns_named]
  refine only_record (only_of_decodes (fun _ _ _ => Or.inr ⟨_, rfl⟩) plain longest known short
    presented ?_)
  intro c memC s leads row inside err failed
  obtain ⟨fault, codec⟩ := Scalar.codec_of_decode failed
  obtain ⟨⟨column, i⟩, position, rfl⟩ := List.mem_map.mp memC
  exact Or.inl ⟨fault, codec, row, within row inside, i, column,
    List.mk_mem_zipIdx_iff_getElem?.mp position, s, leads, failed⟩

/-- A record that has been read is a node of the wanted form, with a cursor from the same row. -/
theorem shaped_of_record {r : Record} (mem : .ok r ∈ records m e result) :
    ∃ row, Shaped m result [] e row items r.node ∧
      r.cursor = (Layout.cursorColumns result.columns).map row.at := by
  obtain ⟨longest, short⟩ := Layout.exists_longest (Layout.named result.columns)
  obtain ⟨group, memG, ok⟩ := List.mem_map.mp mem
  obtain ⟨row, rest, rfl, within⟩ := Group.exists_cons_of_mem_groups memG
  obtain ⟨node, read, rfl⟩ := exists_of_record_eq_ok ok
  rw [Layout.ofColumns_named] at read
  refine ⟨row, ?_, rfl⟩
  have items : (none :: items.map some).reduceOption = items := by
    rw [List.reduceOption_cons_of_none, reduceOption_map_some]
  rw [← items]
  refine shaped_of_members plain longest known short presented ?_ within rfl read
  rintro ⟨names, i⟩ mem
  obtain ⟨⟨column, j⟩, position, same⟩ := List.mem_map.mp mem
  obtain ⟨rfl, rfl⟩ := Prod.mk.inj same
  exact ⟨column, List.mk_mem_zipIdx_iff_getElem?.mp position, rfl⟩

end Nesting

end EntityGraph
