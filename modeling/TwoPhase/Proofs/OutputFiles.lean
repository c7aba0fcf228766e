import TwoPhase.Plots
import TwoPhase.Proofs.HistoryFile

/-!
Files below an output folder: the trace of a solve and the figures of its phases. A folder gains
files when each of them stands at the end of its path, the places on the ways to them are folders,
and nothing else has changed. The steps may be any steps of the two phases, and how a figure is
drawn does not matter.
-/
namespace TwoPhase

namespace Path

def under (p : Path) (names : List String) : Path := { p with parts := p.parts ++ names }

def IsName (s : String) : Prop := ofString s = ⟨false, [s]⟩ ∧ s ≠ ".."

instance (s : String) : Decidable (IsName s) := inferInstanceAs (Decidable (_ ∧ _))

theorem join_ofString {s : String} (h : IsName s) (p : Path) :
    p.join (ofString s) = p.under [s] := by
  rw [h.1]
  rfl

theorem parent_under (p : Path) (name : String) : (p.under [name]).parent = p := by
  simp [parent, under]

theorem join_under (base p : Path) (names : List String) :
    base.join (p.under names) = (base.join p).under names := by
  by_cases habs : p.absolute
  · simp [join, under, habs]
  · simp [join, under, habs]

end Path

namespace Folder

variable {f f' f'' : Folder} {p : Path} {name : String}

theorem spot_under (hname : name ≠ "..") : f.spot (p.under [name]) = f.spot p ++ [name] := by
  rw [spot, Path.join_under, Path.under, List.foldl_append, spot, List.foldl_cons, List.foldl_nil,
    follow, if_neg hname]

theorem way_under (hname : name ≠ "..") :
    f.way (p.under [name]) = f.way p ++ [f.spot p ++ [name]] := by
  rw [way, Path.join_under, Path.under, List.scanl_append, way, spot, List.scanl_cons,
    List.tail_cons, follow, if_neg hname, List.scanl_nil]

/-- A file is put into an open folder, which stays open. -/
theorem write_under (hopen : ∀ q ∈ f.way p, f.get? q = some .folder)
    (hfree : f.get? (f.spot (p.under [name])) ≠ some .folder) (content : ByteArray) :
    ∃ f', f.write (p.under [name]) content = (.ok (), f') ∧
      f.Changed [(f.spot (p.under [name]), content)] [] f' ∧
      ∀ q ∈ f'.way p, f'.get? q = some .folder := by
  have hleads : f.Leads (p.under [name]) := by
    rw [Leads, Path.parent_under]
    exact hopen
  obtain ⟨f', hwrite, hput⟩ := hleads.write_spec (by simp [Path.under]) hfree content
  refine ⟨f', hwrite, hput, fun q hq => ?_⟩
  rw [hput.way_eq] at hq
  rw [hput.get?_of_ne fun heq => hfree (heq ▸ hopen q hq)]
  exact hopen q hq

/-- Files stand at the ends of their paths, the ways to them are open, and the rest is as it was. -/
def Gains (f : Folder) (written : List (Path × ByteArray)) (f' : Folder) : Prop :=
  f.Changed (written.map fun w => (f.spot w.1, w.2)) (written.flatMap fun w => f.way w.1.parent) f'

variable {written written' : List (Path × ByteArray)}

theorem gains_nil : f.Gains [] f := Changed.refl f

theorem Changed.gains {content : ByteArray}
    (h : f.Changed [(f.spot p, content)] (f.way p.parent) f') : f.Gains [(p, content)] f' := by
  simpa [Gains] using h

theorem lookup_written_eq_none {q : List String} (h : ∀ w ∈ written, f.spot w.1 ≠ q) :
    (written.map fun w => (f.spot w.1, w.2)).lookup q = none := by
  rw [List.lookup_eq_none_iff]
  intro e he
  obtain ⟨w, hw, rfl⟩ := List.mem_map.1 he
  simpa using (h w hw).symm

theorem Gains.spot_eq (h : f.Gains written f') (p : Path) : f'.spot p = f.spot p :=
  Changed.spot_eq h p

theorem Gains.way_eq (h : f.Gains written f') (p : Path) : f'.way p = f.way p :=
  Changed.way_eq h p

/-- Files are gained one after the other if the later ones stand elsewhere and pass by the
earlier ones. -/
theorem Gains.append (h : f.Gains written f') (h' : f'.Gains written' f'')
    (hspot : ∀ w ∈ written, ∀ w' ∈ written', f.spot w.1 ≠ f.spot w'.1)
    (hway : ∀ w ∈ written, ∀ w' ∈ written', f.spot w.1 ∉ f.way w'.1.parent) :
    f.Gains (written ++ written') f'' := by
  rw [Gains] at h'
  simp only [h.spot_eq, h.way_eq] at h'
  rw [Gains, List.map_append, List.flatMap_append]
  refine Changed.trans_apart h h' (fun q hq => ?_) fun e he => ?_
  · obtain ⟨w', hw', hq⟩ := List.mem_flatMap.1 hq
    refine lookup_written_eq_none fun w hw heq => ?_
    exact hway w hw w' hw' (heq ▸ hq)
  · obtain ⟨w', hw', rfl⟩ := List.mem_map.1 he
    exact lookup_written_eq_none fun w hw => hspot w hw w' hw'

/-- A further file can be put where none was gained, if the gained ones are off the way to it. -/
theorem Accepts.of_gains (h : f.Accepts p) (hgains : f.Gains written f')
    (hway : ∀ w ∈ written, f.spot w.1 ∉ f.way p.parent)
    (hspot : ∀ w ∈ written, f.spot p ∉ f.way w.1.parent) : f'.Accepts p := by
  refine h.of_changed hgains (fun q hq => ?_) fun hmem => ?_
  · refine lookup_written_eq_none fun w hw heq => ?_
    exact hway w hw (heq ▸ hq)
  · obtain ⟨w, hw, hmem⟩ := List.mem_flatMap.1 hmem
    exact hspot w hw hmem

end Folder

namespace Plots

variable {α : Type} {draw : Drawing α} {folder : Path} {steps : List (Step α)} {f : Folder}

def pivotPhases (steps : List (Step α)) : List Nat :=
  phases.filter fun phase => steps.any (·.phase = phase)

theorem mem_pivotPhases {phase : Nat} :
    phase ∈ pivotPhases steps ↔ (phase = 1 ∨ phase = 2) ∧ ∃ s ∈ steps, s.phase = phase := by
  simp [pivotPhases, phases]

theorem isName_fileName {phase : Nat} (h : phase ∈ phases) : Path.IsName (fileName phase) := by
  revert phase
  decide

theorem figures_eq (draw : Drawing α) (steps : List (Step α)) :
    figures draw steps =
      (pivotPhases steps).map fun phase => (fileName phase, draw phase (points phase steps)) := by
  have hpoints (phase : Nat) :
      (!(points phase steps).isEmpty) = steps.any (·.phase = phase) := by
    rw [Bool.eq_iff_iff]
    simp [points]
  simp only [figures, hpoints, pivotPhases]

theorem nodup_figures : ((figures draw steps).map Prod.fst).Nodup := by
  have hall : (phases.map fileName).Nodup := by decide
  rw [figures_eq, List.map_map]
  exact hall.sublist (List.filter_sublist.map fileName)

/-- Files are written into an open folder, at places that are no folders. -/
theorem saveAll_spec {entries : List (String × ByteArray)}
    (hnames : ∀ e ∈ entries, Path.IsName e.1) (hnodup : (entries.map Prod.fst).Nodup)
    (hopen : ∀ q ∈ f.way folder, f.get? q = some .folder)
    (hfree : ∀ e ∈ entries, f.get? (f.spot (folder.under [e.1])) ≠ some .folder) :
    ∃ paths f', (saveAll folder entries : StateM Folder (Except FileFault (List Path))) f =
        (.ok paths, f') ∧
      f.Changed (entries.map fun e => (f.spot (folder.under [e.1]), e.2)) [] f' := by
  induction entries generalizing f with
  | nil => exact ⟨[], f, rfl, .refl f⟩
  | cons e entries ih =>
    obtain ⟨name, content⟩ := e
    rw [List.forall_mem_cons] at hnames hfree
    rw [List.map_cons, List.nodup_cons] at hnodup
    obtain ⟨f₁, hwrite, hput, hopen₁⟩ := Folder.write_under hopen hfree.1 content
    have hspot : ∀ e ∈ entries, f.spot (folder.under [e.1]) ≠ f.spot (folder.under [name]) := by
      intro e he heq
      rw [Folder.spot_under (hnames.2 e he).2, Folder.spot_under hnames.1.2] at heq
      have hname : e.1 = name := by simpa using heq
      exact hnodup.1 (List.mem_map.2 ⟨e, he, hname⟩)
    obtain ⟨paths, f', hrest, hchanged⟩ := ih hnames.2 hnodup.2 hopen₁ fun e he => by
      rw [hput.spot_eq, hput.get?_of_ne (hspot e he)]
      exact hfree.2 e he
    simp only [hput.spot_eq] at hchanged
    refine ⟨folder.under [name] :: paths, f', ?_, ?_⟩
    · have hwrite' : (FileAccess.write (folder.under [name]) content :
          StateM Folder (Except FileFault Unit)) f = (.ok (), f₁) := hwrite
      rw [saveAll, Path.join_ofString hnames.1]
      simp only [bind, StateT.bind, hwrite', hrest]
      rfl
    · refine hput.trans_apart hchanged (by simp) fun w hw => ?_
      obtain ⟨e, he, rfl⟩ := List.mem_map.1 hw
      simpa using hspot e he

def files (draw : Drawing α) (folder : Path) (steps : List (Step α)) : List (Path × ByteArray) :=
  (pivotPhases steps).map fun phase =>
    (folder.under [s!"phase{phase}_objective.png"], draw phase (points phase steps))

theorem files_eq (draw : Drawing α) (folder : Path) (steps : List (Step α)) :
    files draw folder steps =
      (figures draw steps).map fun e => (folder.under [e.1], e.2) := by
  rw [figures_eq, List.map_map]
  rfl

theorem isName_of_mem_figures {e : String × ByteArray} (he : e ∈ figures draw steps) :
    Path.IsName e.1 := by
  rw [figures_eq] at he
  obtain ⟨phase, hphase, rfl⟩ := List.mem_map.1 he
  exact isName_fileName (List.mem_of_mem_filter hphase)

theorem exists_mem_figures (draw : Drawing α) {s : Step α} (hs : s ∈ steps)
    (hphase : s.phase = 1 ∨ s.phase = 2) : ∃ e, e ∈ figures draw steps := by
  rw [figures_eq]
  exact ⟨_, List.mem_map_of_mem (mem_pivotPhases.2 ⟨hphase, s, hs, rfl⟩)⟩

theorem gains_of_opened {f₁ f' : Folder} {entries : List (String × ByteArray)}
    (hentries : ∃ e, e ∈ entries) (hopened : f.Changed [] (f.way folder) f₁)
    (hput : f₁.Changed (entries.map fun e => (f₁.spot (folder.under [e.1]), e.2)) [] f') :
    f.Gains (entries.map fun e => (folder.under [e.1], e.2)) f' := by
  simp only [hopened.spot_eq] at hput
  have hboth := hopened.trans hput (by simp)
  rw [List.append_nil, List.append_nil] at hboth
  rw [Folder.Gains, List.map_map]
  refine hboth.congr_opened fun q => ⟨fun hq => ?_, fun hq => ?_⟩
  · obtain ⟨e, he⟩ := hentries
    exact List.mem_flatMap.2 ⟨_, List.mem_map_of_mem he, by rwa [Path.parent_under]⟩
  · obtain ⟨w, hw, hq⟩ := List.mem_flatMap.1 hq
    obtain ⟨e, -, rfl⟩ := List.mem_map.1 hw
    rwa [Path.parent_under] at hq

/-- Saving the plots of steps leaves a figure for each phase with a pivot, and no more. -/
theorem save_spec (hphases : ∀ s ∈ steps, s.phase = 1 ∨ s.phase = 2)
    (haccepts : ∀ w ∈ files draw folder steps, f.Accepts w.1) :
    ∃ paths f', (save draw folder steps : StateM Folder (Except FileFault (List Path))) f =
        (.ok paths, f') ∧ f.Gains (files draw folder steps) f' := by
  rw [files_eq] at haccepts ⊢
  have haccepts : ∀ e ∈ figures draw steps, f.Accepts (folder.under [e.1]) :=
    fun e he => haccepts _ (List.mem_map_of_mem he)
  by_cases hsteps : steps = []
  · subst hsteps
    exact ⟨[], f, rfl, Folder.gains_nil⟩
  · obtain ⟨s, hs⟩ := List.exists_mem_of_ne_nil steps hsteps
    obtain ⟨e, he⟩ := exists_mem_figures draw hs (hphases s hs)
    have hway := (haccepts e he).way_free
    rw [Path.parent_under] at hway
    obtain ⟨f₁, hmake, hopened⟩ := Folder.makeFolders_spec hway
    have hopen : ∀ q ∈ f₁.way folder, f₁.get? q = some .folder := by
      intro q hq
      rw [hopened.way_eq] at hq
      rw [hopened.get?_eq]
      exact if_pos hq
    have hfree : ∀ e ∈ figures draw steps,
        f₁.get? (f₁.spot (folder.under [e.1])) ≠ some .folder := by
      intro e he
      have hspot := (haccepts e he).spot_not_mem
      rw [Path.parent_under] at hspot
      rw [hopened.spot_eq, hopened.get?_eq]
      simpa [hspot] using (haccepts e he).spot_free
    obtain ⟨paths, f', hsave, hput⟩ :=
      saveAll_spec (fun e he => isName_of_mem_figures he) nodup_figures hopen hfree
    refine ⟨paths, f', ?_, gains_of_opened ⟨e, he⟩ hopened hput⟩
    have hmake' : (FileAccess.makeFolders folder : StateM Folder (Except FileFault Unit)) f =
        (.ok (), f₁) := hmake
    rw [save, if_neg (by simpa using hsteps)]
    simp only [bind, StateT.bind, hmake', hsave]

end Plots

structure IsTrace (levels : Nat) (steps : List (Step Float)) (texts : List String) : Prop where
  lines_eq : List.Forall₂
    (fun text s => (Record.step (s.mapObjective .float)).line levels = .ok text) texts steps
  unbroken : ∀ text ∈ texts, Text.Unbroken text.toList

theorem print_int {levels : Nat} {i : Int} (hi : (toString i.natAbs).length ≤ Decimal.maxDigits) :
    Json.print levels (.int i) = .ok (toString i) := if_pos hi

theorem printItems_ints {levels : Nat} {is : List Int}
    (h : ∀ i ∈ is, (toString i.natAbs).length ≤ Decimal.maxDigits) :
    Json.printItems levels (is.map Value.int) = .ok (is.map toString) := by
  induction is with
  | nil => rfl
  | cons i is ih =>
    rw [List.forall_mem_cons] at h
    rw [List.map_cons, Json.printItems, print_int h.1, ih h.2]
    rfl

/-- The entries of a step are integers, a double and two lists of integers. -/
theorem exists_line_step {levels : Nat} (hlevels : 2 ≤ levels) {s : Step Float} (hs : s.Legible) :
    ∃ text, (Record.step (s.mapObjective .float)).line levels = .ok text := by
  obtain ⟨n, rfl⟩ := Nat.exists_eq_add_of_le' hlevels
  simp only [Step.Legible, Step.numbers, List.forall_mem_append, List.forall_mem_cons] at hs
  obtain ⟨⟨⟨hphase, hiteration, hrow, hcol, hentering, hleaving, -⟩, hbasis⟩, hnonbasis⟩ := hs
  have hlist (is : List Int) (his : ∀ i ∈ is, (toString i.natAbs).length ≤ Decimal.maxDigits) :
      ∃ text, Json.print (n + 1) (.list (is.map Value.int)) = .ok text :=
    ⟨_, by rw [Json.print, Json.enter_bind, printItems_ints his]; rfl⟩
  obtain ⟨basis, hbasis⟩ := hlist s.basis hbasis
  obtain ⟨nonbasis, hnonbasis⟩ := hlist s.nonbasis hnonbasis
  have hobjective :
      Json.print (n + 1) (.float s.objective) = .ok (Json.floatText s.objective) := rfl
  rw [Record.line, Json.print, Json.enter_bind]
  simp only [Step.mapObjective, Step.entries, Json.printEntries, Json.keyText, print_int hphase,
    print_int hiteration, print_int hrow, print_int hcol, print_int hentering, print_int hleaving,
    hobjective, hbasis, hnonbasis, bind, Except.bind, pure, Except.pure, Except.mapError,
    Except.ok.injEq, exists_eq']

theorem exists_trace {levels : Nat} (hlevels : 2 ≤ levels) {steps : List (Step Float)}
    (hsteps : ∀ s ∈ steps, s.Legible) : ∃ texts, IsTrace levels steps texts := by
  obtain ⟨texts, hlines⟩ := exists_forall₂ fun s hs => exists_line_step hlevels (hsteps s hs)
  refine ⟨texts, hlines, ?_⟩
  have hwritten :=
    History.unbroken_lines levels (steps.map fun s => .step (s.mapObjective .float))
  rwa [History.lines_eq (List.forall₂_map_right_iff.2 hlines)] at hwritten

namespace Folder

variable {f : Folder} {out : Path} {name : String}

/-- The trace stands beside the folder of the figures, and neither is in the way of the other. -/
theorem apart_of_accepts (htrace : f.Accepts (out.under ["trace.jsonl"])) (hname : name ≠ "..")
    (hfigure : f.Accepts ((out.under ["plots"]).under [name])) :
    f.spot (out.under ["trace.jsonl"]) ≠ f.spot ((out.under ["plots"]).under [name]) ∧
      f.spot (out.under ["trace.jsonl"]) ∉ f.way (out.under ["plots"]) ∧
      f.spot ((out.under ["plots"]).under [name]) ∉ f.way out := by
  have hplots : f.spot (out.under ["plots"]) = f.spot out ++ ["plots"] := spot_under (by decide)
  have htrace_spot : f.spot (out.under ["trace.jsonl"]) = f.spot out ++ ["trace.jsonl"] :=
    spot_under (by decide)
  have hway : f.way (out.under ["plots"]) = f.way out ++ [f.spot out ++ ["plots"]] :=
    way_under (by decide)
  have htrace_off := htrace.spot_not_mem
  have hfigure_off := hfigure.spot_not_mem
  rw [Path.parent_under] at htrace_off hfigure_off
  refine ⟨?_, ?_, fun hmem => hfigure_off ?_⟩
  · rw [htrace_spot, spot_under hname, hplots]
    intro heq
    simpa using congrArg List.length heq
  · rw [hway, List.mem_append, List.mem_singleton, not_or]
    refine ⟨htrace_off, ?_⟩
    rw [htrace_spot]
    simp
  · rw [hway]
    exact List.mem_append_left _ hmem

end Folder

end TwoPhase
