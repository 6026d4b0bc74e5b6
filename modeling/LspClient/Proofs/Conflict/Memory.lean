/-
Conflict reports with a memory. What a monitor remembers under an installed set is the report on that set, and neither
writing nor touching nor forgetting entries changes this; so a report from memory is the report that a fresh look would
give. A report depends on the components of the installed set only, not on their order or on repetitions, and a
listener hears of the reports with conflicts as they come.
-/
import LspClient.Conflict
import Mathlib.Data.List.Nodup

namespace LspClient

variable {installed others : List Component} {c d : Component} {selfId capability : String}

/-! ## Sorted texts -/

section Sorted

variable {α : Type} [DecidableEq α] {xs ys : List String}

theorem eraseDups_sublist : ∀ xs : List α, xs.eraseDups.Sublist xs
  | [] => .slnil
  | x :: xs => by
    rw [List.eraseDups_cons]
    exact ((eraseDups_sublist _).trans List.filter_sublist).cons_cons x
termination_by xs => xs.length
decreasing_by exact Nat.lt_succ_of_le (List.length_filter_le _ _)

theorem nodup_eraseDups : ∀ xs : List α, xs.eraseDups.Nodup
  | [] => .nil
  | x :: xs => by
    rw [List.eraseDups_cons, List.nodup_cons]
    constructor
    · simp
    · exact nodup_eraseDups _
termination_by xs => xs.length
decreasing_by exact Nat.lt_succ_of_le (List.length_filter_le _ _)

theorem mem_sortedSet {s : String} : s ∈ Component.sortedSet xs ↔ s ∈ xs := by
  simp [Component.sortedSet]

theorem pairwise_sortedSet (xs : List String) : (Component.sortedSet xs).Pairwise (· ≤ ·) := by
  have sorted : (xs.mergeSort fun a b => decide (a ≤ b)).Pairwise fun a b => decide (a ≤ b) = true := by
    apply List.pairwise_mergeSort
    · intro a b c hab hbc
      exact decide_eq_true (String.le_trans (of_decide_eq_true hab) (of_decide_eq_true hbc))
    · intro a b
      simpa using String.le_total a b
  exact (sorted.sublist (eraseDups_sublist _)).imp of_decide_eq_true

/-- Texts in ascending order without repetitions are told by which texts they are. -/
theorem sortedSet_congr (same : ∀ s, s ∈ xs ↔ s ∈ ys) : Component.sortedSet xs = Component.sortedSet ys := by
  have perm : (Component.sortedSet xs).Perm (Component.sortedSet ys) := by
    refine (List.perm_ext_iff_of_nodup (nodup_eraseDups _) (nodup_eraseDups _)).2 fun s => ?_
    exact mem_sortedSet.trans ((same s).trans mem_sortedSet.symm)
  exact perm.eq_of_pairwise (fun _ _ _ _ => String.le_antisymm) (pairwise_sortedSet xs) (pairwise_sortedSet ys)

end Sorted

/-! ## Installed sets -/

namespace Component

/-- The same id and the same capabilities, in whatever order. -/
theorem normal_eq_iff : c.normal = d.normal ↔ c.id = d.id ∧ ∀ s, s ∈ c.capabilities ↔ s ∈ d.capabilities := by
  unfold normal
  constructor
  · intro h
    obtain ⟨id, capabilities⟩ := Component.mk.inj h
    refine ⟨id, fun s => ?_⟩
    rw [← mem_sortedSet, capabilities, mem_sortedSet]
  · rintro ⟨id, capabilities⟩
    rw [id, sortedSet_congr capabilities]

/-- The same components, in whatever order and however often. -/
def SameSet (installed others : List Component) : Prop :=
  ∀ c, c ∈ installed.map normal ↔ c ∈ others.map normal

theorem mem_normalSet : c ∈ normalSet installed ↔ c ∈ installed.map normal := by
  simp [normalSet]

theorem normal_normal (c : Component) : c.normal.normal = c.normal :=
  normal_eq_iff.2 ⟨rfl, fun _ => mem_sortedSet⟩

theorem sameSet_normalSet (installed : List Component) : SameSet (normalSet installed) installed := by
  intro c
  simp only [List.mem_map, mem_normalSet]
  constructor
  · rintro ⟨_, ⟨d, member, rfl⟩, rfl⟩
    exact ⟨d, member, (normal_normal d).symm⟩
  · rintro ⟨d, member, rfl⟩
    exact ⟨_, ⟨d, member, rfl⟩, normal_normal d⟩

end Component

namespace ConflictReport

theorem mem_find_ids {id : String} : id ∈ (find installed selfId capability).ids ↔
    ∃ c ∈ installed.map Component.normal, c.id = id ∧ id ≠ selfId ∧ capability ∈ c.capabilities := by
  simp only [find, mem_sortedSet, List.mem_map, List.mem_filter, Bool.and_eq_true, decide_eq_true_eq,
    List.contains_iff_mem]
  constructor
  · rintro ⟨c, ⟨member, other, capable⟩, rfl⟩
    exact ⟨c.normal, ⟨c, member, rfl⟩, rfl, other, mem_sortedSet.2 capable⟩
  · rintro ⟨_, ⟨c, member, rfl⟩, rfl, other, capable⟩
    exact ⟨c, ⟨member, other, mem_sortedSet.1 capable⟩, rfl⟩

/-- A report is told by which components are installed. -/
theorem find_congr (same : Component.SameSet installed others) :
    find installed selfId capability = find others selfId capability := by
  have ids : ∀ id, id ∈ (find installed selfId capability).ids ↔ id ∈ (find others selfId capability).ids := by
    intro id
    simp only [mem_find_ids, same _]
  unfold find at ids ⊢
  simp only [mem_sortedSet] at ids
  simp only [sortedSet_congr ids]

end ConflictReport

/-! ## The memory of a monitor -/

namespace ConflictMonitor

variable {m : ConflictMonitor}

/-- A monitor for the given id and capability that remembers, under each installed set, the report on it. -/
structure Faithful (m : ConflictMonitor) (selfId capability : String) : Prop where
  own : m.selfId = selfId
  contested : m.capability = capability
  reports : ∀ e ∈ m.reports.entries, e.2 = ConflictReport.find e.1 selfId capability

theorem faithful_new (selfId capability : String) : (new selfId capability).Faithful selfId capability :=
  ⟨rfl, rfl, fun _ h => nomatch h⟩

/-- A look at an installed set gives the report on it, stores it as the last one, and leaves a monitor that remembers
what is true. -/
theorem Faithful.check (h : m.Faithful selfId capability) (installed : List Component) :
    (m.check installed).1 = ConflictReport.find installed selfId capability ∧
    (m.check installed).2.last = some (ConflictReport.find installed selfId capability) ∧
    (m.check installed).2.Faithful selfId capability := by
  have fresh : ConflictReport.find (Component.normalSet installed) selfId capability =
      ConflictReport.find installed selfId capability :=
    ConflictReport.find_congr (Component.sameSet_normalSet installed)
  unfold ConflictMonitor.check
  dsimp only
  -- The report comes from memory, or from a look at the installed set in its normal form.
  split
  · next report found =>
    have known : report = ConflictReport.find installed selfId capability :=
      (h.reports _ (Recency.mem_of_get? found)).trans fresh
    refine ⟨known, congrArg some known, h.own, h.contested, fun e member => ?_⟩
    exact h.reports e (Recency.mem_touch.1 member)
  · rw [h.own, h.contested]
    refine ⟨fresh, congrArg some fresh, rfl, rfl, fun e member => ?_⟩
    rcases Recency.mem_of_mem_insert member with old | new
    · exact h.reports e old
    · rw [new]

/-! ## Runs -/

/-- A monitor after looks at installed sets, one after the other. -/
def after (m : ConflictMonitor) (checks : List (List Component)) : ConflictMonitor :=
  checks.foldl (fun m installed => (m.check installed).2) m

/-- Looks at installed sets, one after the other, with a listener. -/
def checkAll {M : Type → Type} [Monad M] (listener : ConflictReport → M Unit) (m : ConflictMonitor) :
    List (List Component) → M (List ConflictReport × ConflictMonitor)
  | [] => pure ([], m)
  | installed :: checks => do
    let (report, m) := m.check installed
    report.announce listener
    let (reports, m) ← checkAll listener m checks
    return (report :: reports, m)

theorem Faithful.after (h : m.Faithful selfId capability) (checks : List (List Component)) :
    (m.after checks).Faithful selfId capability := by
  induction checks generalizing m with
  | nil => exact h
  | cons installed checks ih => exact ih (h.check installed).2.2

variable {M : Type → Type} [Monad M] [LawfulMonad M]

/-- All that looks at installed sets do is to hand the reports with conflicts to the listener. -/
theorem Faithful.checkAll (h : m.Faithful selfId capability) (listener : ConflictReport → M Unit)
    (checks : List (List Component)) :
    m.checkAll listener checks = do
      let reports := checks.map fun installed => ConflictReport.find installed selfId capability
      (reports.filter ConflictReport.hasConflicts).forM listener
      return (reports, m.after checks) := by
  induction checks generalizing m with
  | nil => simp [ConflictMonitor.checkAll, ConflictMonitor.after]
  | cons installed checks ih =>
    obtain ⟨report, _, next⟩ := h.check installed
    simp only [ConflictMonitor.checkAll, report, ih next, List.map_cons, List.filter_cons, bind_assoc, pure_bind]
    unfold ConflictReport.announce
    split <;> simp [ConflictMonitor.after]

/-- The memory of a monitor cannot be told from outside. Whatever installed sets a new monitor has looked at, the next
look gives the report on the installed set and stores it as the last one. A report is the same for the same components,
in whatever order and however often they are listed. And a run of looks does nothing but to hand the reports with
conflicts to the listener, each once and in their order, whatever the listener does. -/
theorem memory_transparent (selfId capability : String) (checks : List (List Component)) :
    let reports := checks.map fun installed => ConflictReport.find installed selfId capability
    (∀ installed, let look := ((new selfId capability).after checks).check installed
      look.1 = ConflictReport.find installed selfId capability ∧ look.2.last = some look.1) ∧
    (∀ installed others, Component.SameSet installed others →
      ConflictReport.find installed selfId capability = ConflictReport.find others selfId capability) ∧
    ∀ {M : Type → Type} [Monad M] [LawfulMonad M] (listener : ConflictReport → M Unit),
      (new selfId capability).checkAll listener checks = do
        (reports.filter ConflictReport.hasConflicts).forM listener
        return (reports, (new selfId capability).after checks) := by
  have faithful := faithful_new selfId capability
  refine ⟨fun installed => ?_, fun _ _ same => ConflictReport.find_congr same, fun listener => ?_⟩
  · obtain ⟨report, last, _⟩ := (faithful.after checks).check installed
    exact ⟨report, last.trans (congrArg some report.symm)⟩
  · exact faithful.checkAll listener checks

/-- A listener that keeps what it hears has a report for every look with conflicts, from memory or not. -/
theorem memory_transparent_repeated :
    (((new "a" "x").checkAll (fun r => modify (· ++ [r]))
      [[⟨"b", ["x"]⟩], [⟨"a", ["x"]⟩], [⟨"b", ["x"]⟩, ⟨"b", ["x"]⟩]] : StateM (List ConflictReport) _).run []).2 =
      [⟨"x", ["b"]⟩, ⟨"x", ["b"]⟩] := by
  have once : ConflictReport.find [⟨"b", ["x"]⟩] "a" "x" = ⟨"x", ["b"]⟩ := by
    simp [ConflictReport.find, Component.sortedSet, List.eraseDups_cons]
  have none : ConflictReport.find [⟨"a", ["x"]⟩] "a" "x" = ⟨"x", []⟩ := by
    simp [ConflictReport.find, Component.sortedSet]
  have twice : ConflictReport.find [⟨"b", ["x"]⟩, ⟨"b", ["x"]⟩] "a" "x" = ⟨"x", ["b"]⟩ :=
    (ConflictReport.find_congr fun c => by simp).trans once
  rw [(memory_transparent "a" "x" _).2.2, List.map_cons, List.map_cons, List.map_cons, once, none, twice]
  rfl

end ConflictMonitor

end LspClient
