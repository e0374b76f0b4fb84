import EntityGraph.Proofs.Plan.Compiled
import EntityGraph.Proofs.Window.Split

/-!
# The row behind the window

A list asks for one row more than its page keeps, to see whether rows follow. The number is a sum
of 64 bits: where a page may keep as many rows as that can count, there is no such number, and the
request breaks off.
-/
namespace EntityGraph

/-! ## Pages -/

namespace Page

variable {n : Nat} {entity : Entity n} {params : Params} {config : Config}

/-- How many rows a request asks for, before the limit of the configuration. -/
def asked (params : Params) (config : Config) : UInt64 :=
  if isBackward params then params.last.getD 0
  else params.first.getD (config.defaultLimit.getD config.maxLimit)

/-- Whether a page keeps the most rows that 64 bits can count. -/
def Brimful (params : Params) (config : Config) : Prop :=
  config.maxLimit.toNat = 2 ^ 64 - 1 ∧ (asked params config).toNat = 2 ^ 64 - 1

theorem keptFirst_eq (params : Params) (config : Config) :
    keptFirst params config = min (asked params config) config.maxLimit := by
  unfold keptFirst asked
  split
  · rfl
  · cases params.first with
    | some first => rfl
    | none =>
      cases limit : config.defaultLimit with
      | some limit => simp [Config.pageSize, limit]
      | none =>
        have itself : min config.maxLimit config.maxLimit = config.maxLimit := Std.min_self
        simp [Config.pageSize, limit, itself]

theorem brimful_iff (params : Params) (config : Config) :
    Brimful params config ↔ (keptFirst params config).toNat = 2 ^ 64 - 1 := by
  have most := config.maxLimit.toNat_lt
  have wanted := (asked params config).toNat_lt
  have least : (min (asked params config) config.maxLimit).toNat =
      min (asked params config).toNat config.maxLimit.toNat := by
    rw [UInt64.min_def]
    split <;> rename_i less <;> rw [UInt64.le_iff_toNat_le] at less <;> omega
  rw [Brimful, keptFirst_eq, least]
  omega

theorem brimful_iff_of_plan {page : Page} (ok : plan entity params config = .ok page) :
    Brimful params config ↔ page.first.toNat + 1 = UInt64.size := by
  obtain ⟨after, before, planned⟩ := exists_planned ok
  rw [brimful_iff, planned.first, UInt64.size]
  omega

theorem exists_limit_iff {page : Page} :
    (∃ limit, page.limit = .ok limit) ↔ ¬ page.first.toNat + 1 = UInt64.size := by
  cases outcome : page.limit with
  | ok limit =>
    have counted := limit_eq_ok.mp outcome
    refine iff_of_true ⟨limit, rfl⟩ ?_
    rw [← counted]
    exact Nat.ne_of_lt limit.toNat_lt
  | error fault =>
    obtain ⟨-, full⟩ := limit_eq_error.mp outcome
    exact iff_of_false (by rintro ⟨limit, impossible⟩; cases impossible) (not_not.mpr full)

/-- A page is planned exactly if its cursors can be read. -/
theorem exists_plan_iff : (∃ page, plan entity params config = .ok page) ↔
    (∃ after, readCursor .after params.after (listOrder entity params.order).length = .ok after) ∧
      ∃ before,
        readCursor .before params.before (listOrder entity params.order).length = .ok before := by
  constructor
  · rintro ⟨page, ok⟩
    obtain ⟨after, before, planned⟩ := exists_planned ok
    exact ⟨⟨after, planned.readAfter⟩, before, planned.readBefore⟩
  · rintro ⟨⟨after, readAfter⟩, before, readBefore⟩
    unfold plan
    dsimp only
    rw [readAfter, readBefore]
    cases isBackward params with
    | true => exact ⟨_, rfl⟩
    | false => exact ⟨_, rfl⟩

end Page

/-! ## Statements -/

namespace Statement

/-- How many rows of its own table a statement keeps. -/
def rootLimit (s : Statement) : Option UInt64 :=
  match s.bounded with
  | none => s.limit
  | some b => b.limit

end Statement

namespace Plan

variable {m : Model} {entity : Entity m.size} {selection : List Selection} {params : Params}
  {config : Config}

theorem rootLimit_window {s : Statement} (whole : s.bounded = none) (parts : ListParts)
    (page : Page) (limit : UInt64) : (window s parts page limit).rootLimit = some limit := by
  unfold window
  dsimp only
  split
  · simp only [Statement.rootLimit, whole]
  · rfl

theorem list_rootLimit {plan : ListPlan} (ok : list m entity selection params config = .ok plan) :
    ∃ limit, plan.statement.rootLimit = some limit ∧
      limit.toNat = plan.page.first.toNat + 1 := by
  obtain ⟨parts, d, limit, -, drafts, counted, same⟩ := list_eq_ok.mp ok
  have grown := (draftList_reached drafts).grown
  rw [same]
  exact ⟨limit, rootLimit_window grown.statement_bare.2.2.2.2 parts plan.page limit, counted⟩

theorem list_overflows_iff : list m entity selection params config = .error .overflow ↔
    Page.Brimful params config ∧ ∃ page parts d, Page.plan entity params config = .ok page ∧
      Drafting.runOn entity (draftList selection page) = .ok (parts, d) := by
  rw [list_eq_error]
  constructor
  · rintro (⟨e, impossible, -⟩ | ⟨-, page, parts, d, pageOk, drafted, full⟩)
    · cases impossible
    · exact ⟨(Page.brimful_iff_of_plan pageOk).mpr full, page, parts, d, pageOk, drafted⟩
  · rintro ⟨brimful, page, parts, d, pageOk, drafted⟩
    exact Or.inr ⟨rfl, page, parts, d, pageOk, drafted,
      (Page.brimful_iff_of_plan pageOk).mp brimful⟩

/-- Where its cursors can be read, a list has a page that keeps no more rows than it may. It asks
for one row more, and so does the statement of a list, unless that is one more than 64 bits can
count. Then a request that could be planned otherwise breaks off. -/
theorem list_keeps_one_more (entity : Entity m.size) (params : Params) (config : Config) :
    ((∃ page, Page.plan entity params config = .ok page) ↔
      (∃ after, Page.readCursor .after params.after
        (Page.listOrder entity params.order).length = .ok after) ∧
      ∃ before, Page.readCursor .before params.before
        (Page.listOrder entity params.order).length = .ok before) ∧
    (∀ page, Page.plan entity params config = .ok page →
      page.first = min (Page.asked params config) config.maxLimit ∧
      page.first ≤ config.maxLimit ∧
      (∀ limit, page.limit = .ok limit ↔ limit.toNat = page.first.toNat + 1) ∧
      ((∃ limit, page.limit = .ok limit) ↔ ¬ Page.Brimful params config) ∧
      (page.limit = .error .overflow ↔ Page.Brimful params config)) ∧
    ∀ selection,
      (∀ plan, list m entity selection params config = .ok plan →
        Page.plan entity params config = .ok plan.page ∧
        ∃ limit, plan.statement.rootLimit = some limit ∧
          limit.toNat = plan.page.first.toNat + 1) ∧
      (list m entity selection params config = .error .overflow ↔
        Page.Brimful params config ∧ ∃ page parts d, Page.plan entity params config = .ok page ∧
          Drafting.runOn entity (draftList selection page) = .ok (parts, d)) := by
  refine ⟨Page.exists_plan_iff, fun page ok => ?_, fun selection =>
    ⟨fun plan ok => ⟨?_, list_rootLimit ok⟩, list_overflows_iff⟩⟩
  · obtain ⟨after, before, planned⟩ := Page.exists_planned ok
    have brimful := Page.brimful_iff_of_plan ok
    refine ⟨planned.first.trans (Page.keptFirst_eq params config), planned.first_le,
      fun limit => Page.limit_eq_ok, ?_, ?_⟩
    · rw [Page.exists_limit_iff, brimful]
    · rw [Page.limit_eq_error, brimful, and_iff_right rfl]
  · obtain ⟨-, -, -, pageOk, -⟩ := list_eq_ok.mp ok
    exact pageOk

/-- A configuration that allows as many rows as 64 bits can count. -/
def brimfulConfig : Config where
  maxLimit := 18446744073709551615

theorem library_keeps_one_more : ∃ plan,
    list libraryModel libraryAuthors librarySelection {} {} = .ok plan ∧
      plan.statement.rootLimit = some 101 := by
  obtain ⟨plan, ok⟩ : ∃ plan,
      list libraryModel libraryAuthors librarySelection {} {} = .ok plan := ⟨_, rfl⟩
  obtain ⟨-, pages, lists⟩ := list_keeps_one_more libraryAuthors {} {}
  obtain ⟨pageOk, limit, kept, counted⟩ := (lists librarySelection).1 plan ok
  obtain ⟨first, -⟩ := pages plan.page pageOk
  have more : limit.toNat = 101 := by
    rw [counted, first]
    rfl
  exact ⟨plan, ok, kept.trans (congrArg some (UInt64.toNat_inj.mp more))⟩

/-- The configuration is accepted, and the page keeps as many authors as it allows; but one more
cannot be counted, and no list of authors is planned. -/
theorem brimful_library_breaks_off :
    Config.ofText "max_limit = 18446744073709551615" = .ok brimfulConfig ∧
    ∃ page, Page.plan libraryAuthors {} brimfulConfig = .ok page ∧
      page.first = brimfulConfig.maxLimit ∧ page.limit = .error .overflow ∧
      list libraryModel libraryAuthors librarySelection {} brimfulConfig = .error .overflow :=
  ⟨by decide +kernel, _, rfl, rfl, rfl, rfl⟩

end Plan

end EntityGraph
