import TwoPhase.Main
import TwoPhase.Proofs.MatrixFile
import TwoPhase.Proofs.OutputFiles
import TwoPhase.Proofs.Totality

/-!
The exit status of the program and the files it leaves, in terms of the solve that it runs. The
configuration has to load, the limit of the arguments to be positive, and the files to have a place
in the folder. The numbers of a trace have to have texts: one with more digits than can be written
would take a number of variables or pivots with as many digits. The reference may return any double
or fail with any message; that it breaks off is left aside. Nothing is assumed of the readers, of
the digests of grids, of the layout or of the drawing.
-/
namespace TwoPhase

namespace Yaml

theorem read_of_tokens {cs : List Char} {ts : List Token} {root : Node}
    (htokens : tokens cs = .ok ts) (hroot : Node.ofTokens ts = .ok (some root)) :
    read cs = root.value := by
  rw [read, htokens]
  simp only [bind, Except.bind, hroot]

theorem value_mapping {nodes : List (Node × Node)} {entries : List (String × Value)}
    (hkeys : (entries.map Prod.fst).Nodup)
    (hnodes : entryValues nodes = .ok (Value.keyed entries)) :
    (Node.mapping nodes).value = .ok (.dict (Value.keyed entries)) := by
  rw [Node.value, hnodes]
  simp only [bind, Except.bind, Value.ofPairs_keyed hkeys]
  rfl

end Yaml

namespace CommandLine

open Folder

variable {β γ : Type} {f f' f'' : Folder} {x : Run (StateM Folder) β}
  {k : β → Run (StateM Folder) γ} {b : β} {d : γ}

/-- Whatever was printed before, a run in a folder returns a value and leaves a folder. -/
def Ends (x : Run (StateM Folder) β) (f : Folder) (b : β) (f' : Folder) : Prop :=
  ∀ o, ∃ o', x.run.run o f = ((.ok b, o'), f')

theorem ends_pure (b : β) (f : Folder) : Ends (pure b) f b f := fun o => ⟨o, rfl⟩

theorem Ends.bind (hx : Ends x f b f') (hk : Ends (k b) f' d f'') : Ends (x >>= k) f d f'' := by
  intro o
  obtain ⟨o', hx⟩ := hx o
  obtain ⟨o'', hk⟩ := hk o'
  refine ⟨o'', ?_⟩
  simp only [Bind.bind, ExceptT.bind, ExceptT.mk, ExceptT.run, StateT.bind, StateT.run] at hx ⊢
  rw [hx]
  exact hk

theorem ends_say (text : String) (f : Folder) : Ends (say text) f () f := fun _ => ⟨_, rfl⟩

theorem ends_warn (text : String) (f : Folder) : Ends (warn text) f () f := fun _ => ⟨_, rfl⟩

theorem ends_need {ε : Type} {r : Except ε β} (fault : ε → RunFault) (h : r = .ok b)
    (f : Folder) : Ends (need fault r) f b f := by
  rw [h]
  exact ends_pure b f

theorem ends_lift {y : StateM Folder β} (h : y f = (b, f')) :
    Ends (liftM y : Run (StateM Folder) β) f b f' := by
  intro o
  refine ⟨o, ?_⟩
  change (match y f with | (b, f') => ((Except.ok b, o), f')) = _
  rw [h]

variable {tools : Tools} {a : Arguments} {c c' : Config} {folder : Path} {o : OutputConfig}
  {texts : List String} {steps : List (Step Float)} {report : Report Float}

def filesIn (draw : Plots.Drawing Float) (folder : Path) (o : OutputConfig) (texts : List String)
    (steps : List (Step Float)) : List (Path × ByteArray) :=
  (if o.trace then [(folder.under ["trace.jsonl"], (Text.endedLines texts).toUTF8)] else []) ++
    (if o.plots then Plots.files draw (folder.under ["plots"]) steps else [])

/-- The files of a run; without an output folder there are none. -/
def outputFiles (draw : Plots.Drawing Float) (out : Option String) (o : OutputConfig)
    (texts : List String) (steps : List (Step Float)) : List (Path × ByteArray) :=
  out.elim [] fun out => filesIn draw (Path.ofString out) o texts steps

theorem savePlots_spec (hphases : ∀ s ∈ steps, s.phase = 1 ∨ s.phase = 2)
    (haccepts : ∀ w ∈ if o.plots then Plots.files tools.draw (folder.under ["plots"]) steps else [],
      f.Accepts w.1) :
    ∃ f', Ends (do
        if o.plots then
          let saved ← (Plots.save tools.draw (folder.join (Path.ofString "plots")) steps :
            StateM Folder (Except FileFault (List Path)))
          let _ ← need .file saved) f () f' ∧
      f.Gains (if o.plots then Plots.files tools.draw (folder.under ["plots"]) steps else [])
        f' := by
  by_cases hplots : o.plots
  · simp only [if_pos hplots] at haccepts ⊢
    obtain ⟨paths, f', hsave, hgains⟩ := Plots.save_spec hphases haccepts
    rw [Path.join_ofString (by decide)]
    exact ⟨f', (ends_lift hsave).bind ((ends_need _ rfl f').bind (ends_pure _ f')), hgains⟩
  · simp only [if_neg hplots]
    exact ⟨f, ends_pure () f, gains_nil⟩

/-- After the trace is written, the figures still have their places. -/
theorem accepts_files_of_trace {f₁ : Folder} {content : ByteArray}
    (htrace : f.Accepts (folder.under ["trace.jsonl"]))
    (hgains : f.Gains [(folder.under ["trace.jsonl"], content)] f₁) {w : Path × ByteArray}
    (hw : w ∈ Plots.files tools.draw (folder.under ["plots"]) steps) (haccepts : f.Accepts w.1) :
    f₁.Accepts w.1 ∧ f.spot (folder.under ["trace.jsonl"]) ≠ f.spot w.1 ∧
      f.spot (folder.under ["trace.jsonl"]) ∉ f.way w.1.parent := by
  rw [Plots.files_eq] at hw
  obtain ⟨e, he, rfl⟩ := List.mem_map.1 hw
  obtain ⟨hspot, hway, hback⟩ :=
    apart_of_accepts htrace (Plots.isName_of_mem_figures he).2 haccepts
  rw [Path.parent_under]
  refine ⟨haccepts.of_gains hgains ?_ ?_, hspot, hway⟩
  · simpa [Path.parent_under] using hway
  · simpa [Path.parent_under] using hback

/-- Writing the files of a solve that have a place leaves these files and no more. -/
theorem writeFiles_spec (htrace : o.trace → IsTrace tools.levels steps texts)
    (hphases : ∀ s ∈ steps, s.phase = 1 ∨ s.phase = 2)
    (haccepts : ∀ w ∈ filesIn tools.draw folder o texts steps, f.Accepts w.1) :
    ∃ f', Ends (writeFiles tools folder o steps) f () f' ∧
      f.Gains (filesIn tools.draw folder o texts steps) f' := by
  rw [filesIn] at haccepts ⊢
  by_cases ho : o.trace
  · rw [if_pos ho] at haccepts ⊢
    rw [List.singleton_append, List.forall_mem_cons] at haccepts
    have hlines := History.lines_eq (List.forall₂_map_right_iff.2 (htrace ho).lines_eq)
    obtain ⟨f₁, hsave, hchanged⟩ := History.save_spec haccepts.1 hlines
    have hplots : ∀ w ∈ if o.plots then Plots.files tools.draw (folder.under ["plots"]) steps
        else [], f₁.Accepts w.1 ∧ f.spot (folder.under ["trace.jsonl"]) ≠ f.spot w.1 ∧
          f.spot (folder.under ["trace.jsonl"]) ∉ f.way w.1.parent := by
      intro w hw
      by_cases hplots : o.plots
      · exact accepts_files_of_trace haccepts.1 hchanged.gains (by simpa [hplots] using hw)
          (haccepts.2 w hw)
      · simp [hplots] at hw
    obtain ⟨f', hends, hgains⟩ := savePlots_spec hphases fun w hw => (hplots w hw).1
    refine ⟨f', ?_, hchanged.gains.append hgains ?_ ?_⟩
    · rw [writeFiles, if_pos ho, Path.join_ofString (by decide)]
      exact (ends_lift hsave).bind ((ends_need _ rfl f₁).bind hends)
    · simpa using fun w content hw => (hplots (w, content) hw).2.1
    · simpa using fun w content hw => (hplots (w, content) hw).2.2
  · rw [if_neg ho, List.nil_append] at haccepts ⊢
    obtain ⟨f', hends, hgains⟩ := savePlots_spec hphases haccepts
    refine ⟨f', ?_, hgains⟩
    rw [writeFiles, if_neg ho]
    exact hends

def scale (x : Float) : Float := if (Number.float 1).lt (.float x.abs) then x.abs else 1

def Agrees (objective reference : Float) : Prop :=
  (Number.float (objective - reference).abs).le (.float (1e-6 * scale reference))

instance (objective reference : Float) : Decidable (Agrees objective reference) :=
  inferInstanceAs (Decidable (_ = true))

def Confirms (objective : Float) : Except ReferenceFault Float → Prop
  | .ok reference => Agrees objective reference
  | .error _ => False

/-- The exit codes: one for a failure of the solve, two for a solution that is to be checked and
is not confirmed, zero for every other solution. -/
structure Status (check : Bool) (reference : Except ReferenceFault Float)
    (outcome : Outcome Float) (code : Nat) : Prop where
  one_iff : code = 1 ↔ ∃ reason phase, outcome = .failed reason phase
  two_iff : code = 2 ↔
    ∃ x objective, outcome = .optimal x objective ∧ check = true ∧ ¬Confirms objective reference
  zero_iff : code = 0 ↔
    ∃ x objective, outcome = .optimal x objective ∧ (check = true → Confirms objective reference)

theorem objectivesAgree_eq (objective reference : Float) :
    ∃ agree, objectivesAgree (.float objective) (.float reference) tolerance = .ok agree ∧
      (agree = true ↔ Agrees objective reference) := by
  refine ⟨(Number.float (objective - reference).abs).le (.float (1e-6 * scale reference)), ?_,
    Iff.rfl⟩
  cases hscale : (Number.float 1).lt (.float reference.abs) with
  | true =>
    simp only [objectivesAgree, Number.abs, scale, hscale, if_true]
    rfl
  | false =>
    simp only [objectivesAgree, Number.abs, scale, hscale, Bool.false_eq_true, if_false]
    rfl

/-- The check ends with a code for whether the reference confirms, and touches no file. -/
theorem crossCheck_spec {p : LinearProgram Float} (objective : Float)
    (hreference : ∀ reason, tools.reference p ≠ .error (.brokenOff reason)) (f : Folder) :
    ∃ code, Ends (crossCheck tools p objective) f code f ∧
      (Confirms objective (tools.reference p) ∧ code = exitOk ∨
        ¬Confirms objective (tools.reference p) ∧ code = exitMismatch) := by
  rw [crossCheck]
  cases hresult : tools.reference p with
  | error failure =>
    cases failure with
    | brokenOff reason => exact absurd hresult (hreference reason)
    | unsolved message => exact ⟨_, (ends_warn _ f).bind (ends_pure _ f), .inr ⟨id, rfl⟩⟩
  | ok reference =>
    obtain ⟨agree, hagree, hiff⟩ := objectivesAgree_eq objective reference
    cases agree with
    | true =>
      exact ⟨_, (ends_need _ hagree f).bind ((ends_say _ f).bind (ends_pure _ f)),
        .inl ⟨hiff.1 rfl, rfl⟩⟩
    | false =>
      have hnot : ¬Agrees objective reference := fun h => by simpa using hiff.2 h
      exact ⟨_, (ends_need _ hagree f).bind ((ends_warn _ f).bind (ends_pure _ f)),
        .inr ⟨hnot, rfl⟩⟩

def Traces (a : Arguments) (o : OutputConfig) : Prop := a.out.isSome ∧ o.trace

structure Overrides (a : Arguments) (c c' : Config) : Prop where
  problem_eq : c'.problem = c.problem
  output_eq : c'.output = c.output
  check_eq : c'.check = (c.check || a.check)
  verbose_eq : c'.options.verbose = (c.options.verbose || a.verbose)
  limit_eq : (c'.options.maxIterations : Int) = a.maxIterations.getD c.options.maxIterations

theorem Overrides.unique {c'' : Config} (h : Overrides a c c') (h' : Overrides a c c'') :
    c' = c'' := by
  obtain ⟨problem, ⟨verbose, limit, hpos⟩, output, check⟩ := c'
  obtain ⟨problem', ⟨verbose', limit', hpos'⟩, output', check'⟩ := c''
  obtain rfl : problem = problem' := h.problem_eq.trans h'.problem_eq.symm
  obtain rfl : output = output' := h.output_eq.trans h'.output_eq.symm
  obtain rfl : check = check' := h.check_eq.trans h'.check_eq.symm
  obtain rfl : verbose = verbose' := h.verbose_eq.trans h'.verbose_eq.symm
  obtain rfl : limit = limit' := Int.ofNat.inj (h.limit_eq.trans h'.limit_eq.symm)
  rfl

theorem exists_override (hlimit : ∀ i, a.maxIterations = some i → 1 ≤ i) (c : Config) :
    ∃ c', override a c = .ok c' ∧ Overrides a c c' := by
  have hoptions : ∃ options : Options,
      (if a.verbose then { c.options with verbose := true } else c.options) = options ∧
        options.verbose = (c.options.verbose || a.verbose) ∧
        options.maxIterations = c.options.maxIterations := by
    by_cases hverbose : a.verbose
    · exact ⟨_, if_pos hverbose, by simp [hverbose], rfl⟩
    · exact ⟨_, if_neg hverbose, by simp [hverbose], rfl⟩
  obtain ⟨options, hoptions, hverbose, hkept⟩ := hoptions
  cases hi : a.maxIterations with
  | none =>
    refine ⟨{ c with options, check := c.check || a.check }, ?_, rfl, rfl, rfl, hverbose, ?_⟩
    · simp only [override, hi, hoptions]
      rfl
    · simp [hi, hkept]
  | some i =>
    have hone := hlimit i hi
    have hpos : 0 < i.toNat := by omega
    refine ⟨{ c with options := ⟨options.verbose, i.toNat, hpos⟩, check := c.check || a.check }, ?_,
      rfl, rfl, rfl, hverbose, ?_⟩
    · simp only [override, hi, hoptions, Options.withMaxIterations, dif_pos hpos]
      rfl
    · simp only [hi, Option.getD_some]
      omega

theorem phase_of_solve {options : Options} {p : LinearProgram Float}
    (hsolve : solve tools.setting options p = .ok report) {s : Step Float}
    (hs : s ∈ report.result.steps) : s.phase = 1 ∨ s.phase = 2 := by
  obtain ⟨left, seen, t, hvisit, -, -⟩ := (Solver.recorded_of_solve hsolve s hs).visits
  rcases hvisit.reached with ⟨hphase, -⟩ | ⟨hphase, -⟩
  · exact .inl hphase
  · exact .inr hphase

theorem conclude_spec
    (hreference : ∀ reason, tools.reference c.problem ≠ .error (.brokenOff reason))
    (outcome : Outcome Float) (iterations : Nat × Nat) (f : Folder) :
    ∃ code, Ends (match outcome with
        | .failed reason phase => do
          say s!"error: {reason.message phase}\n"
          return exitFailed
        | .optimal x objective => do
          say (solutionText tools x objective iterations)
          if c.check then crossCheck tools c.problem objective else return exitOk) f code f ∧
      Status c.check (tools.reference c.problem) outcome code := by
  cases outcome with
  | failed reason phase =>
    refine ⟨exitFailed, (ends_say _ f).bind (ends_pure _ f), ?_⟩
    constructor <;> simp [exitFailed]
  | optimal x objective =>
    by_cases hcheck : c.check
    · obtain ⟨code, hends, hcode⟩ := crossCheck_spec objective hreference f
      refine ⟨code, (ends_say _ f).bind ?_, ?_⟩
      · rw [if_pos hcheck]
        exact hends
      · rcases hcode with ⟨hconfirms, rfl⟩ | ⟨hdenies, rfl⟩
        · constructor <;> simp [exitOk, hcheck, hconfirms]
        · constructor <;> simp [exitMismatch, hcheck, hdenies]
    · refine ⟨exitOk, (ends_say _ f).bind ?_, ?_⟩
      · rw [if_neg hcheck]
        exact ends_pure _ f
      · constructor <;> simp [exitOk, hcheck]

theorem runConfig_spec (hsolve : solve tools.setting c.options c.problem = .ok report)
    (htrace : Traces a c.output → IsTrace tools.levels report.result.steps texts)
    (hreference : ∀ reason, tools.reference c.problem ≠ .error (.brokenOff reason))
    (haccepts : ∀ w ∈ outputFiles tools.draw a.out c.output texts report.result.steps,
      f.Accepts w.1) :
    ∃ code f', Ends (runConfig tools a c) f code f' ∧
      Status c.check (tools.reference c.problem) report.result.outcome code ∧
      f.Gains (outputFiles tools.draw a.out c.output texts report.result.steps) f' ∧
      (a.out = none → f' = f) := by
  cases hout : a.out with
  | none =>
    obtain ⟨code, hends, hstatus⟩ :=
      conclude_spec hreference report.result.outcome report.result.iterations f
    refine ⟨code, f, ?_, hstatus, gains_nil, fun _ => rfl⟩
    rw [runConfig, hout]
    exact (ends_need _ hsolve f).bind ((ends_say _ f).bind ((ends_warn _ f).bind hends))
  | some out =>
    rw [hout, outputFiles, Option.elim_some] at haccepts
    have htrace (ho : c.output.trace) := htrace ⟨Option.isSome_of_eq_some hout, ho⟩
    obtain ⟨f', hwrite, hgains⟩ :=
      writeFiles_spec htrace (fun s hs => phase_of_solve hsolve hs) haccepts
    obtain ⟨code, hends, hstatus⟩ :=
      conclude_spec hreference report.result.outcome report.result.iterations f'
    refine ⟨code, f', ?_, hstatus, hgains, by simp⟩
    rw [runConfig, hout]
    exact (ends_need _ hsolve f).bind ((ends_say _ f).bind ((ends_warn _ f).bind
      (hwrite.bind hends)))

/-- Loading changes nothing, and the rest of the run goes by the overridden configuration. -/
theorem Ends.runArguments {code : Nat}
    (hload : f.look (Config.load tools.readers (Path.ofString a.config)) = .ok c)
    (hoverride : override a c = .ok c') (hends : Ends (runConfig tools a c') f code f') :
    Ends (runArguments tools a) f code f' := by
  have hrun := (Config.readsOnly_load tools.readers (Path.ofString a.config)).run_eq f
  rw [hload] at hrun
  exact (ends_lift hrun).bind ((ends_need _ rfl f).bind ((ends_need _ hoverride f).bind hends))

/-- For a configuration that loads, the exit status of a run says how the solve of the overridden
configuration came out and whether the reference confirms it, and the files that are left are the
trace, with a line for each step, and the figures of the phases with a step, as far as they are
asked for. -/
theorem status_of_run {words : List String} (hwords : Arguments.ofWords words = .ok (some a))
    (hload : f.look (Config.load tools.readers (Path.ofString a.config)) = .ok c)
    (hlimit : ∀ i, a.maxIterations = some i → 1 ≤ i)
    (hreference : ∀ reason, tools.reference c.problem ≠ .error (.brokenOff reason)) :
    ∃ c' report, Overrides a c c' ∧ solve tools.setting c'.options c'.problem = .ok report ∧
      ((Traces a c'.output → ∀ s ∈ report.result.steps, s.Legible) →
        ∃ texts, (Traces a c'.output → IsTrace tools.levels report.result.steps texts) ∧
          ((∀ w ∈ outputFiles tools.draw a.out c'.output texts report.result.steps,
              f.Accepts w.1) →
            ∃ code output f', (run tools words : StateM Folder (Except Ending Nat × Output)) f =
                ((.ok code, output), f') ∧
              Status c'.check (tools.reference c'.problem) report.result.outcome code ∧
              f.Gains (outputFiles tools.draw a.out c'.output texts report.result.steps) f' ∧
              (a.out = none → f' = f))) := by
  obtain ⟨c', hoverride, hoverrides⟩ := exists_override hlimit c
  obtain ⟨report, hsolve⟩ := Solver.exists_solve tools.setting c'.options c'.problem
  refine ⟨c', report, hoverrides, hsolve, fun hlegible => ?_⟩
  obtain ⟨texts, htrace⟩ :
      ∃ texts, Traces a c'.output → IsTrace tools.levels report.result.steps texts := by
    by_cases htraces : Traces a c'.output
    · obtain ⟨texts, htrace⟩ := exists_trace tools.two_le_levels (hlegible htraces)
      exact ⟨texts, fun _ => htrace⟩
    · exact ⟨[], fun h => absurd h htraces⟩
  refine ⟨texts, htrace, fun haccepts => ?_⟩
  rw [← hoverrides.problem_eq] at hreference
  obtain ⟨code, f', hends, hstatus, hgains, hkept⟩ :=
    runConfig_spec hsolve htrace hreference haccepts
  obtain ⟨output, hrun⟩ := hends.runArguments hload hoverride {}
  refine ⟨code, output, f', ?_, hstatus, hgains, hkept⟩
  rw [run, hwords]
  exact hrun

section MaxOne

open Config

def maxOneText : String :=
  "problem: \x7bc: [-1], A: [[1]], b: [1]\x7d\noutput: \x7bplots: true\x7d\n"

def maxOneFolder : Folder := oneFile "lp.yaml" maxOneText

def maxOneTokens : List Yaml.Token :=
  [.blockMapping,
    .key, .scalar "problem" true, .value, .flowMapping,
    .key, .scalar "c" true, .value, .flowSequence, .scalar "-1" true, .flowSequenceEnd, .comma,
    .key, .scalar "A" true, .value, .flowSequence,
    .flowSequence, .scalar "1" true, .flowSequenceEnd, .flowSequenceEnd, .comma,
    .key, .scalar "b" true, .value, .flowSequence, .scalar "1" true, .flowSequenceEnd,
    .flowMappingEnd,
    .key, .scalar "output" true, .value, .flowMapping,
    .key, .scalar "plots" true, .value, .scalar "true" true, .flowMappingEnd,
    .blockEnd]

def maxOneProblem : List (String × Value) :=
  [("c", .list [.int (-1)]), ("A", .list [.list [.int 1]]), ("b", .list [.int 1])]

def maxOneOutput : List (String × Value) := [("plots", .bool true)]

def maxOneSections : List (String × Value) :=
  [("problem", .dict (Value.keyed maxOneProblem)), ("output", .dict (Value.keyed maxOneOutput))]

def maxOne : LinearProgram Float where
  cost := [-1]
  upper := ⟨Grid.ofFn 1 1 fun _ _ => 1, [1], rfl, rfl⟩
  equal := ⟨Grid.ofFn 0 1 fun _ _ => 0, [], rfl, rfl⟩
  offset := 0
  cost_ne_nil := List.cons_ne_nil _ _

theorem read_maxOneText : Yaml.read (Text.unifyLineEnds maxOneText.toList) =
    .ok (.dict (Value.keyed maxOneSections)) := by
  have htokens : Yaml.tokens (Text.unifyLineEnds maxOneText.toList) = .ok maxOneTokens := by
    decide +kernel
  have hkeys : (maxOneSections.map Prod.fst).Nodup := by decide
  have hproblem : (maxOneProblem.map Prod.fst).Nodup := by decide
  have houtput : (maxOneOutput.map Prod.fst).Nodup := by decide
  rw [Yaml.read_of_tokens htokens rfl]
  refine Yaml.value_mapping hkeys ?_
  rw [Yaml.entryValues, Yaml.entryValues, Yaml.value_mapping hproblem rfl,
    Yaml.value_mapping houtput rfl]
  rfl

theorem look_load_maxOne :
    maxOneFolder.look (Config.load Program.readers (Path.ofString "lp.yaml")) =
      .ok ⟨maxOne, {}, ⟨true, true⟩, false⟩ := by
  have hread : (Program.readers.yaml (Text.unifyLineEnds maxOneText.toList)).mapError
      ConfigFault.reader =
      .ok (.dict (Value.keyed maxOneSections)) := by
    simp only [Program.readers, read_maxOneText]
    rfl
  have hsection (key : String) : field? (.dict (Value.keyed maxOneSections)) key =
      .ok (maxOneSections.lookup key) := congrArg Except.ok (Value.lookup_keyed _ _)
  have hoptions : readOptions (orEmpty (maxOneSections.lookup "options")) = .ok {} := by
    change readOptions (.dict (Value.keyed [])) = _
    simp only [readOptions, field?, Value.lookup_keyed]
    rfl
  have houtput : readOutput (orEmpty (maxOneSections.lookup "output")) = .ok ⟨true, true⟩ := by
    change readOutput (.dict (Value.keyed maxOneOutput)) = _
    simp only [readOutput, field?, Value.lookup_keyed]
    rfl
  have hproblem : maxOneFolder.look (readProblem Program.readers ⟨true, []⟩
      (orEmpty (maxOneSections.lookup "problem"))) = .ok maxOne := by
    change maxOneFolder.look
      (readProblem Program.readers ⟨true, []⟩ (.dict (Value.keyed maxOneProblem))) = _
    simp only [look_readProblem, array?, given?, field?, readOffset, Value.lookup_keyed]
    rfl
  unfold load
  rw [look_bind_of_ok (readsOnly_expanded _) (b := ⟨false, ["lp.yaml"]⟩) rfl,
    look_bind_of_ok (b := ⟨true, []⟩) (fun _ => rfl) rfl,
    look_bind_of_ok (readsOnly_text _) (look_text rfl (Text.fromUTF8?_toUTF8 maxOneText)),
    look_lift_bind hread]
  change maxOneFolder.look
    (ofValue Program.readers ⟨true, []⟩ (.dict (Value.keyed maxOneSections))) = _
  unfold ofValue
  rw [look_lift_bind (hsection _), look_lift_bind (hsection _), look_lift_bind (hsection _),
    look_lift_bind hoptions, look_lift_bind houtput,
    look_bind_of_ok (readsOnly_readProblem _ _ _) hproblem, look_lift_bind (hsection _)]
  rfl

def maxOneTools : Tools :=
  { Program.tools with reference := fun _ => .ok (-1), draw := fun _ _ => .empty }

theorem accepts_maxOneFolder {names : List String}
    (hnames : names ∈ [["runs", "trace.jsonl"], ["runs", "plots", "phase2_objective.png"]]) :
    maxOneFolder.Accepts ⟨false, names⟩ := by
  have hnew : ∀ names ∈ [["runs", "trace.jsonl"], ["runs", "plots", "phase2_objective.png"]],
      names ≠ [] ∧
        maxOneFolder.spot ⟨false, names⟩ ∉ maxOneFolder.way (Path.parent ⟨false, names⟩) ∧
        ["lp.yaml"] ∉ maxOneFolder.spot ⟨false, names⟩ ::
          maxOneFolder.way (Path.parent ⟨false, names⟩) := by
    decide
  obtain ⟨hne, hspot, hentry⟩ := hnew names hnames
  exact accepts_of_new hne hspot (List.forall_mem_singleton.2 hentry)

theorem solve_maxOne (h : solve maxOneTools.setting {} maxOne = .ok report) :
    (∃ x objective, report.result.outcome = .optimal x objective ∧ Agrees objective (-1)) ∧
      ∃ s, report.result.steps = [s] ∧ s.phase = 2 ∧ s.Legible := by
  have hsolved : (solve maxOneTools.setting {} maxOne).map (fun r =>
      (match r.result.outcome with
        | .optimal _ objective => decide (Agrees objective (-1))
        | .failed _ _ => false,
      r.result.steps.map fun s => (s.phase, decide s.Legible))) = .ok (true, [(2, true)]) := by
    decide +kernel
  obtain ⟨r, hr, hfacts⟩ := map_eq_ok hsolved
  obtain rfl : r = report := Except.ok.inj (hr.symm.trans h)
  obtain ⟨hagrees, hphases⟩ := Prod.mk.inj hfacts
  obtain ⟨s, hs, hfacts⟩ := List.map_eq_singleton_iff.1 hphases
  obtain ⟨hphase, hlegible⟩ := Prod.mk.inj hfacts
  refine ⟨?_, s, hs, hphase, of_decide_eq_true hlegible⟩
  cases houtcome : r.result.outcome with
  | failed reason phase => simp [houtcome] at hagrees
  | optimal x objective => exact ⟨x, objective, rfl, by simpa [houtcome] using hagrees⟩

theorem outputFiles_maxOne {s : Step Float} (hphase : s.phase = 2) :
    outputFiles maxOneTools.draw (some "runs") ⟨true, true⟩ texts [s] =
      [(⟨false, ["runs", "trace.jsonl"]⟩, (Text.endedLines texts).toUTF8),
        (⟨false, ["runs", "plots", "phase2_objective.png"]⟩, .empty)] := by
  have hphases : Plots.pivotPhases [s] = [2] := by
    simp [Plots.pivotPhases, Plots.phases, hphase]
  simp only [outputFiles, filesIn, Plots.files, hphases, Option.elim_some]
  rfl

/-- A checked run with plots is confirmed and leaves a trace of one line and one figure. -/
theorem status_of_run_max_one :
    ∃ texts output f', texts.length = 1 ∧
      (run maxOneTools ["--config", "lp.yaml", "--out", "runs", "--check"] :
        StateM Folder (Except Ending Nat × Output)) maxOneFolder = ((.ok 0, output), f') ∧
      maxOneFolder.Gains
        [(⟨false, ["runs", "trace.jsonl"]⟩, (Text.endedLines texts).toUTF8),
          (⟨false, ["runs", "plots", "phase2_objective.png"]⟩, .empty)] f' := by
  obtain ⟨c', report, hoverrides, hsolve, hrun⟩ :=
    @status_of_run maxOneFolder maxOneTools ⟨"lp.yaml", some "runs", false, none, true, .warning⟩
      ⟨maxOne, {}, ⟨true, true⟩, false⟩ ["--config", "lp.yaml", "--out", "runs", "--check"] rfl
      look_load_maxOne (fun i hi => by cases hi) (fun _ h => by cases h)
  obtain rfl : c' = ⟨maxOne, {}, ⟨true, true⟩, true⟩ := hoverrides.unique ⟨rfl, rfl, rfl, rfl, rfl⟩
  obtain ⟨⟨x, objective, houtcome, hagrees⟩, s, hsteps, hphase, hlegible⟩ := solve_maxOne hsolve
  rw [hsteps] at hrun
  obtain ⟨texts, htrace, hrun⟩ := hrun fun _ => List.forall_mem_singleton.2 hlegible
  obtain ⟨code, output, f', hends, hstatus, hgains, -⟩ := hrun fun w hw => by
    rw [outputFiles_maxOne hphase] at hw
    rcases List.mem_pair.1 hw with rfl | rfl
    · exact accepts_maxOneFolder (by simp)
    · exact accepts_maxOneFolder (by simp)
  have hcode : code = 0 := hstatus.zero_iff.2 ⟨x, objective, houtcome, fun _ => hagrees⟩
  rw [outputFiles_maxOne hphase] at hgains
  have hlength := (htrace ⟨rfl, rfl⟩).lines_eq.length_eq
  exact ⟨texts, output, f', hlength, hcode ▸ hends, hgains⟩

end MaxOne

end CommandLine

end TwoPhase
