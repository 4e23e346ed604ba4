import UiStyle.Proofs.CommandLine.Modes
import UiStyle.Proofs.Manifest.Reload

/-!
# The warnings of a run

A run of the command line can warn in each of its stages:

| stage      | warnings                                                              |
|------------|-----------------------------------------------------------------------|
| loading    | one for each rule made that is not valid                              |
| the sheet  | one if it holds rules that are not valid, however many                |
| delivering | one if the sheet was to be exported and could not be                  |

Loading makes the rules of the pairs in front of whatever stops it (`Builds`, which leaves no choice
by `Builds.unique`), and a run that is stopped there has no further stage.  The second stage looks
at the sheet and not at what the first reported, so a rule that was replaced counts in the first
only.

Each stage puts its warnings behind those of the stages before it (`Journal.warnings_reportAll`,
`Journal.warnings_announce`, `warnings_deliver`).  `warnings_runOn` lists all of them, and
`warnings_of_run` counts them: only the last kind, and a manifest that does not load, show in the
code of the run.
-/

namespace UiStyle

/-! ### What loading makes -/

/-- The declarations that loading makes of what was read, which may not be a manifest: one for each
pair, as far as the first check that fails. -/
inductive Builds : Except Failure Manifest → List Declaration → Prop
  | unread {e : Failure} : Builds (.error e) []
  | passed {m : Manifest} {built : List Declaration} (hpass : ∀ c ∈ m.checks, c.Passes)
    (hbuilt : List.Forall₂ Declares (m.checks.filterMap Check.pair?) built) : Builds (.ok m) built
  | stopped {m : Manifest} {before after : List Check} {c : Check} {e : Failure}
    {built : List Declaration} (hchecks : m.checks = before ++ c :: after)
    (hpass : ∀ c ∈ before, c.Passes) (hfails : c.Fails e)
    (hbuilt : List.Forall₂ Declares (before.filterMap Check.pair?) built) : Builds (.ok m) built

/-- Only one check is the first that fails. -/
theorem Check.eq_of_first_fails {before before' after after' : List Check} {c c' : Check}
    {e e' : Failure} (h : before ++ c :: after = before' ++ c' :: after')
    (hpass : ∀ c ∈ before, c.Passes) (hfails : c.Fails e) (hpass' : ∀ c ∈ before', c.Passes)
    (hfails' : c'.Fails e') : before = before' := by
  -- if one front were longer, it would hold the check that fails behind the other
  rcases List.append_eq_append_iff.mp h with ⟨more, hbefore', hrest⟩ | ⟨more, hbefore, hrest⟩
  · cases more with
    | nil => rw [hbefore', List.append_nil]
    | cons first more =>
        obtain ⟨rfl, -⟩ := List.cons.inj hrest
        have hmem : c ∈ before' := by simp [hbefore']
        exact absurd hfails (hpass' c hmem e)
  · cases more with
    | nil => rw [hbefore, List.append_nil]
    | cons first more =>
        obtain ⟨rfl, -⟩ := List.cons.inj hrest
        have hmem : c' ∈ before := by simp [hbefore]
        exact absurd hfails' (hpass c' hmem e')

theorem Builds.unique {found : Except Failure Manifest} {built built' : List Declaration}
    (h : Builds found built) (h' : Builds found built') : built = built' := by
  have hdeclared : ∀ {pairs : List (String × Json)}, List.Forall₂ Declares pairs built →
      List.Forall₂ Declares pairs built' → built = built' :=
    fun hbuilt hbuilt' => List.right_unique_forall₂' (fun _ _ _ h h' => h.unique h') hbuilt hbuilt'
  cases h with
  | unread =>
      cases h'
      rfl
  | passed hpass hbuilt =>
      cases h' with
      | passed _ hbuilt' => exact hdeclared hbuilt hbuilt'
      | stopped hchecks' _ hfails' _ => exact absurd hfails' (hpass _ (by simp [hchecks']) _)
  | stopped hchecks hpass hfails hbuilt =>
      cases h' with
      | passed hpass' _ => exact absurd hfails (hpass' _ (by simp [hchecks]) _)
      | stopped hchecks' hpass' hfails' hbuilt' =>
          obtain rfl := Check.eq_of_first_fails (hchecks.symm.trans hchecks') hpass hfails hpass'
            hfails'
          exact hdeclared hbuilt hbuilt'

namespace CommandLine

theorem builds_loadSheet (found : Except Failure Manifest) (layout : Layout) :
    ∃ built, Builds found built ∧
      (loadSheet found layout).reports = built.filterMap Declaration.violation? := by
  cases found with
  | error e => exact ⟨[], .unread, rfl⟩
  | ok m =>
      -- dropping the counter from the result reports nothing
      have hgoes : GoesThrough m.checks (loadSheet (.ok m) layout) := by
        rw [loadSheet, map_eq_pure_bind]
        exact (m.goesThrough_load layout 1).map Prod.fst
      cases hgoes with
      | @passed built _ hpass hbuilt hload => exact ⟨built, .passed hpass hbuilt, by rw [hload]⟩
      | @stopped before after c e built hchecks hpass hfails hbuilt hload =>
          exact ⟨built, .stopped hchecks hpass hfails hbuilt, by rw [hload]⟩

end CommandLine

/-! ### What delivering adds -/

namespace Sheet

theorem exportReport_ne_empty (s : Sheet) (e : Failure) : s.exportReport e ≠ "" := by
  intro h
  have hfront := (String.append_eq_empty_iff.mp h).1
  exact absurd (String.append_eq_empty_iff.mp hfront).2 (by decide)

/-- The warning about an export on a disk, if it fails. -/
def exportWarnings (s : Sheet) (d : Disk) (directory : String) (overwrite : Bool) : List Event :=
  match (d.serve (s.request directory overwrite)).1.1 with
  | .ok _ => []
  | .error e => [.warning (s.exportReport e)]

theorem warnings_exportWith (s : Sheet) (directory : String) (overwrite : Bool) (j : Journal)
    (d : Disk) :
    ((s.exportWith Disk.files.writer .log directory overwrite j).run d).1.2.warnings =
      j.warnings ++ s.exportWarnings d directory overwrite := by
  have houtcome := Disk.outcome_serve d (s.request directory overwrite)
  simp only [exportWith, exportWarnings, Disk.serve, StateT.run_bind] at houtcome ⊢
  rcases hserve : (Disk.files.writer (s.request directory overwrite)).run d with
    ⟨⟨result, events⟩, after⟩
  rw [hserve] at houtcome
  -- what the writer announces is no warning
  have hquiet : (j.announce events).warnings = j.warnings := by
    rw [j.warnings_announce]
    cases houtcome <;> exact List.append_nil _
  cases result with
  | ok path =>
      calc ((j.announce events).announce [s.exportedEvent path]).warnings
          = (j.announce events).warnings ++ [] := Journal.warnings_announce ..
        _ = j.warnings ++ [] := by rw [hquiet]
  | error e =>
      calc ((j.announce events).report .log (some (s.exportReport e))).warnings
          = (j.announce events).warnings ++ [.warning (s.exportReport e)] :=
            Journal.warnings_report (s.exportReport_ne_empty e) _
        _ = j.warnings ++ [.warning (s.exportReport e)] := by rw [hquiet]

end Sheet

namespace CommandLine

variable {d : Disk} {o : Options} {s : Sheet}

/-- The warnings of delivering a sheet: there are none if it is printed. -/
def deliveryWarnings (d : Disk) (o : Options) (s : Sheet) : List Event :=
  match o.output with
  | none => []
  | some directory => s.exportWarnings d directory o.force

theorem warnings_deliver (d : Disk) (o : Options) (s : Sheet) (j : Journal) :
    ((deliver Disk.files o s j).run d).1.journal.warnings =
      j.warnings ++ deliveryWarnings d o s := by
  cases hmode : o.output with
  | none =>
      simp only [deliver, deliveryWarnings, hmode, List.append_nil]
      rfl
  | some directory =>
      simp only [deliver, deliveryWarnings, hmode, StateT.run_bind]
      exact s.warnings_exportWith directory o.force j d

/-- A sheet is to be exported, and its request cannot be carried out. -/
def ExportFails (d : Disk) (o : Options) (s : Sheet) : Prop :=
  ∃ directory, o.output = some directory ∧
    ¬ ∃ after, d.Writes (s.request directory o.force) after

theorem not_exportFails_of_none (hmode : o.output = none) : ¬ ExportFails d o s := by
  rintro ⟨directory, houtput, -⟩
  rw [hmode] at houtput
  cases houtput

/-- Whether an export fails is told by the answer to its request. -/
theorem exportFails_iff_of_some {directory : String} (hmode : o.output = some directory) :
    ExportFails d o s ↔ (d.serve (s.request directory o.force)).1.1.isOk = false := by
  rw [← Bool.not_eq_true, Disk.isOk_serve_iff]
  constructor
  · rintro ⟨directory', houtput, hnot⟩
    rw [hmode] at houtput
    obtain rfl := Option.some.inj houtput
    exact hnot
  · exact fun hnot => ⟨directory, hmode, hnot⟩

instance (d : Disk) (o : Options) (s : Sheet) : Decidable (ExportFails d o s) :=
  match hmode : o.output with
  | none => isFalse (not_exportFails_of_none hmode)
  | some _ => decidable_of_iff' _ (exportFails_iff_of_some hmode)

theorem length_deliveryWarnings :
    (deliveryWarnings d o s).length = if ExportFails d o s then 1 else 0 := by
  cases hmode : o.output with
  | none =>
      rw [if_neg (not_exportFails_of_none hmode), deliveryWarnings, hmode]
      rfl
  | some directory =>
      have hiff := exportFails_iff_of_some (d := d) (s := s) hmode
      rw [deliveryWarnings, hmode]
      dsimp only [Sheet.exportWarnings]
      cases hanswer : (d.serve (s.request directory o.force)).1.1 with
      | ok path =>
          have hnot : ¬ ExportFails d o s := by
            rw [hiff, hanswer]
            exact Bool.noConfusion
          exact (if_neg hnot).symm
      | error e =>
          have hfails : ExportFails d o s := by
            rw [hiff, hanswer]
            rfl
          exact (if_pos hfails).symm

theorem code_deliver (j : Journal) :
    ((deliver Disk.files o s j).run d).1.code = 0 ↔ ¬ ExportFails d o s := by
  rw [Outcome.code_eq_zero_iff]
  cases hmode : o.output with
  | none =>
      simp only [deliver, hmode]
      exact iff_of_true rfl (not_exportFails_of_none hmode)
  | some directory =>
      obtain ⟨-, herror, -⟩ := deliver_export (d := d) (s := s) hmode j
      rw [herror, exportFails_iff_of_some hmode, Bool.not_eq_false]

/-! ### A whole run -/

theorem filter_invalidEvents (s : Sheet) :
    (invalidEvents s).filter Event.isWarning = invalidEvents s := by
  unfold invalidEvents
  split <;> rfl

theorem length_invalidEvents (s : Sheet) :
    (invalidEvents s).length = if ∃ r ∈ s.allRules, r.valid = false then 1 else 0 := by
  unfold invalidEvents
  simp only [List.isEmpty_iff, Sheet.invalidRules_eq_nil_iff, ite_not]
  split <;> rfl

/-- The warnings of a run are those of its stages. -/
theorem warnings_runOn (d : Disk) (o : Options) : (runOn d o).1.journal.warnings =
    (loadedOn d o).reports.map (fun v => .warning v.message) ++
      match (loadedOn d o).result with
      | .error _ => []
      | .ok s => invalidEvents s ++ deliveryWarnings d o s := by
  have hloaded : (loadedJournal d o).warnings =
      (loadedOn d o).reports.map fun v => .warning v.message :=
    Journal.warnings_reportAll {} _
  rw [runOn_eq]
  cases (loadedOn d o).result with
  | error e => exact hloaded.trans (List.append_nil _).symm
  | ok s =>
      -- the event about what was loaded is not a warning, the one about invalid rules is
      have hchecked : ((loadedJournal d o).announce
          (Manifest.loadedEvent s :: invalidEvents s)).warnings =
            (loadedJournal d o).warnings ++ invalidEvents s := by
        rw [Journal.warnings_announce, List.filter_cons_of_neg Bool.false_ne_true,
          filter_invalidEvents]
      dsimp only
      rw [warnings_deliver, hchecked, hloaded, List.append_assoc]

/-- **The warnings of a run.**  The warnings in the log are as many as the rules that were made and
are not valid, as far as loading went; and if it went to the end, one more if a rule in the sheet is
not valid, and one more if the sheet was to be exported and could not be.  The code is 0 exactly if
the manifest has loaded and no export has failed, whichever rules are valid. -/
theorem warnings_of_run (d : Disk) (o : Options) :
    ∃ built, Builds ((Manifest.ofFile Disk.files o.manifest).run d).1 built ∧
      (runOn d o).1.journal.warnings.length =
        (built.filter fun b => !b.rule.valid).length +
          (match (loadedOn d o).result with
          | .error _ => 0
          | .ok s =>
            (if ∃ r ∈ s.allRules, r.valid = false then 1 else 0) +
              if ExportFails d o s then 1 else 0) ∧
      ((runOn d o).1.code = 0 ↔
        ∃ s, (loadedOn d o).result = .ok s ∧ ¬ ExportFails d o s) := by
  obtain ⟨built, hbuilt, hreports⟩ :=
    builds_loadSheet ((Manifest.ofFile Disk.files o.manifest).run d).1 o.layout
  have hloading : (loadedOn d o).reports.length = (built.filter fun b => !b.rule.valid).length :=
    calc (loadedOn d o).reports.length
        = (built.filterMap Declaration.violation?).length := congrArg List.length hreports
      _ = (built.filter fun b => !b.rule.valid).length :=
          (violations_of_built built).length_eq.symm
  refine ⟨built, hbuilt, ?_, ?_⟩
  · rw [warnings_runOn, List.length_append, List.length_map, hloading]
    cases (loadedOn d o).result with
    | error e => rfl
    | ok s => simp only [List.length_append, length_invalidEvents, length_deliveryWarnings]
  · rw [runOn_eq]
    cases hresult : (loadedOn d o).result with
    | error e => exact iff_of_false (show (1 : UInt32) ≠ 0 by decide) nofun
    | ok s =>
        refine (code_deliver _).trans ⟨fun h => ⟨s, rfl, h⟩, ?_⟩
        rintro ⟨s', hs', h⟩
        obtain rfl := Except.ok.inj hs'
        exact h

end CommandLine

end UiStyle
