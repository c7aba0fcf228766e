import Mathlib.Data.List.Forall2
import TwoPhase.History.File
import TwoPhase.Proofs.FolderWrites
import TwoPhase.Proofs.JsonValue
import TwoPhase.Proofs.Loops

/-!
A history that is saved and loaded again. Each record takes one line, whatever its texts hold, and
none of the lines is blank, so the reader passes over none of them. The records are pivots and
mappings under distinct texts whose values have a printed form, with at most 4300 digits to an
integer and no more nesting than the writer allows. Nested mappings are dictionaries, and an array
is one whose cells are numbers in nested lists. The folder is one in which the file can be put; that
it existed before is not assumed.
-/
namespace TwoPhase

namespace Text

theorem unifyLineEnds_append {cs : List Char} (hcs : Unbroken cs) (ds : List Char) :
    unifyLineEnds (cs ++ '\n' :: ds) = cs ++ '\n' :: unifyLineEnds ds := by
  induction cs with
  | nil => rw [List.nil_append, unifyLineEnds] <;> simp
  | cons c cs ih =>
    rw [unbroken_cons] at hcs
    have hr : c ≠ '\r' := hcs.1.2
    rw [List.cons_append, unifyLineEnds, ih hcs.2, List.cons_append]
    · exact fun after h => absurd h hr
    · exact hr

theorem splitLines_append {cs : List Char} (hcs : Unbroken cs) (ds : List Char) :
    splitLines (cs ++ '\n' :: ds) = cs :: splitLines ds := by
  induction cs with
  | nil => rfl
  | cons c cs ih =>
    rw [unbroken_cons] at hcs
    rw [List.cons_append, splitLines, ih hcs.2]
    exact hcs.1.1

def endedLines (texts : List String) : String := String.join (texts.map (· ++ "\n"))

/-- Of lines that end with a line feed each, nothing is left after the last. -/
theorem lines_endedLines {texts : List String} (h : ∀ t ∈ texts, Unbroken t.toList) :
    lines (endedLines texts) = texts.map String.toList ++ [[]] := by
  unfold lines endedLines
  rw [String.toList_join]
  induction texts with
  | nil => rfl
  | cons t texts ih =>
    have ht := h t List.mem_cons_self
    have hrest := ih fun t ht => h t (List.mem_cons_of_mem _ ht)
    have hline : (t ++ "\n").toList = t.toList ++ ['\n'] := by simp
    rw [List.map_cons, List.flatMap_cons, hline, List.append_assoc, List.singleton_append,
      unifyLineEnds_append ht, splitLines_append ht, hrest]
    rfl

theorem fromUTF8?_toUTF8 (s : String) : String.fromUTF8? s.toUTF8 = some s := by
  have hvalid : s.toUTF8.IsValidUTF8 := s.isValidUTF8
  rw [String.fromUTF8?, dif_pos hvalid]
  rfl

end Text

def Step.numbers {α : Type} (s : Step α) : List Int :=
  [(s.phase : Int), s.iteration, s.row, s.col, s.entering, s.leaving] ++ s.basis ++ s.nonbasis

def Step.Legible {α : Type} (s : Step α) : Prop :=
  ∀ i ∈ s.numbers, (toString i.natAbs).length ≤ Decimal.maxDigits

instance {α : Type} (s : Step α) : Decidable s.Legible :=
  inferInstanceAs (Decidable (∀ i ∈ s.numbers, (toString i.natAbs).length ≤ Decimal.maxDigits))

namespace Record

/-- The records whose entries have a printed form. -/
inductive Printable : Nat → Record → Prop
  | step {n : Nat} (s : Step Value) (legible : s.Legible)
      (objective_printable : s.objective.Printable (n + 1)) : Printable (n + 2) (.step s)
  | mapping {n : Nat} (entries : List (String × Value)) (keys_nodup : (entries.map Prod.fst).Nodup)
      (values_printable : ∀ e ∈ entries, e.2.Printable n) :
      Printable (n + 1) (.value (.dict (Value.keyed entries)))

/-- What is read for a record: the entries of a step, or the mapping without its arrays. -/
def shown : Record → Value
  | .step s => .dict (s.mapObjective Value.plain).entries
  | .value v => v.plain

end Record

theorem Step.printable_entries {s : Step Value} {n : Nat} (hdigits : s.Legible)
    (hobjective : s.objective.Printable (n + 1)) :
    Value.Printable (n + 2) (.dict s.entries) := by
  have hint {k : Nat} : ∀ i ∈ s.numbers, Value.Printable k (.int i) :=
    fun i hi => .int i (hdigits i hi)
  have hints (is : List Int) (his : ∀ i ∈ is, i ∈ s.numbers) :
      Value.Printable (n + 1) (.list (is.map .int)) :=
    .list _ (List.forall_mem_map.2 fun i hi => hint i (his i hi))
  have hentries : s.entries = Value.keyed
      [("phase", .int s.phase), ("iteration", .int s.iteration), ("row", .int s.row),
        ("col", .int s.col), ("entering", .int s.entering), ("leaving", .int s.leaving),
        ("objective", s.objective), ("basis", .list (s.basis.map .int)),
        ("nonbasis", .list (s.nonbasis.map .int))] := rfl
  rw [hentries]
  refine .dict _ (by simp) ?_
  simp only [List.forall_mem_cons]
  refine ⟨hint _ ?_, hint _ ?_, hint _ ?_, hint _ ?_, hint _ ?_, hint _ ?_, hobjective,
    hints _ fun i hi => ?_, hints _ fun i hi => ?_, by simp⟩ <;> simp [numbers, *]

theorem Step.plain_entries (s : Step Value) :
    (Value.dict s.entries).plain = .dict (s.mapObjective Value.plain).entries := by
  have hints (is : List Int) : Value.plainItems (is.map .int) = is.map .int := by
    rw [Value.plainItems_eq, List.map_map]
    rfl
  simp [Value.plain, entries, Value.plainEntries, mapObjective, hints]

structure ReadsLine (text : String) (v : Value) : Prop where
  brace : ∃ cs, text.toList = '\x7b' :: cs
  reads : Json.Reads text v

theorem exists_readsLine {n : Nat} {entries : List (Value × Value)}
    (h : Value.Printable n (.dict entries)) :
    ∃ text, Json.print n (.dict entries) = .ok text ∧
      ReadsLine text (Value.dict entries).plain := by
  obtain ⟨text, hprint, hreads⟩ := Json.exists_print h
  refine ⟨text, hprint, ?_, hreads⟩
  rw [Json.print, bind_eq_ok] at hprint
  obtain ⟨left, -, hprint⟩ := hprint
  obtain ⟨texts, -, htext⟩ := bind_eq_ok.1 hprint
  have htext : "\x7b" ++ ", ".intercalate texts ++ "\x7d" = text := Except.ok.inj htext
  exact ⟨(", ".intercalate texts).toList ++ ['\x7d'], by rw [← htext]; simp⟩

theorem Record.unbroken_line {n : Nat} (r : Record) {text : String} (h : r.line n = .ok text) :
    Text.Unbroken text.toList := by
  have hprint (v : Value) (hv : (Json.print n v).mapError RecordFault.print = .ok text) :
      Text.Unbroken text.toList := by
    cases htext : Json.print n v with
    | error fault => simp [htext, Except.mapError] at hv
    | ok s =>
      rw [htext] at hv
      exact Except.ok.inj hv ▸ Json.unbroken_print n v htext
  cases r with
  | step s => exact hprint _ h
  | value v =>
    rw [line, bind_eq_ok] at h
    obtain ⟨entries, -, h⟩ := h
    exact hprint _ h

theorem Record.exists_line {n : Nat} {r : Record} (h : r.Printable n) :
    ∃ text, r.line n = .ok text ∧ ReadsLine text r.shown := by
  cases h with
  | step s hdigits hobjective =>
    obtain ⟨text, hprint, hline⟩ := exists_readsLine (Step.printable_entries hdigits hobjective)
    refine ⟨text, by rw [line, hprint]; rfl, ?_⟩
    rwa [shown, ← s.plain_entries]
  | mapping entries hkeys hvalues =>
    obtain ⟨text, hprint, hline⟩ := exists_readsLine (.dict entries hkeys hvalues)
    exact ⟨text, by simp only [line, mapping, bind, Except.bind, hprint]; rfl, hline⟩

namespace History

theorem unbroken_lines (n : Nat) (records : List Record) :
    ∀ t ∈ (lines n records).1, Text.Unbroken t.toList := by
  induction records with
  | nil => simp [lines]
  | cons r records ih =>
    rw [lines]
    cases hline : r.line n with
    | error fault => simp
    | ok text => exact List.forall_mem_cons.2 ⟨r.unbroken_line hline, ih⟩

theorem lines_eq {n : Nat} {records : List Record} {texts : List String}
    (h : List.Forall₂ (fun t r => r.line n = .ok t) texts records) :
    lines n records = (texts, none) := by
  induction h with
  | nil => rfl
  | @cons t r texts records hline _ ih => rw [lines, hline, ih]

theorem read?_line {text : String} {v : Value} (h : ReadsLine text v) :
    Json.read? (String.ofList text.toList) = some v := by
  have hvalue := h.reads.value_eq (Json.fuelFor text.toList) [] (by rw [Json.fuelFor]; omega)
    Json.closes_nil
  rw [List.append_nil] at hvalue
  simp only [Json.read?, String.ofList_toList, h.reads.starts.skipSpace_eq, hvalue]
  rfl

theorem read?_endedLines {texts : List String} {vs : List Value}
    (hunbroken : ∀ t ∈ texts, Text.Unbroken t.toList) (h : List.Forall₂ ReadsLine texts vs) :
    read? (Text.endedLines texts) = some vs := by
  have hbrace : ∀ t ∈ texts, ∃ cs, t.toList = '\x7b' :: cs :=
    ((List.forall₂_and_left _ _).1 (h.imp fun t v ht => ⟨ht.brace, ht⟩)).1
  have hfilter : (texts.map String.toList).filter (fun line => !line.all Text.isBlank) =
      texts.map String.toList := by
    rw [List.filter_eq_self]
    intro line hline
    obtain ⟨t, ht, rfl⟩ := List.mem_map.1 hline
    obtain ⟨cs, hcs⟩ := hbrace t ht
    rw [hcs, List.all_cons]
    rfl
  have hlast : [[]].filter (fun line => !line.all Text.isBlank) = [] := rfl
  rw [read?, Text.lines_endedLines hunbroken, List.filter_append, hfilter, hlast, List.append_nil]
  refine mapM_eq_pure_of_forall₂ (List.forall₂_map_left_iff.2 ?_)
  exact h.imp fun t v => read?_line

theorem write_eq {n : Nat} {records : List Record} {texts : List String}
    {stopped : Option RecordFault} (h : lines n records = (texts, stopped)) :
    write n records = (Text.endedLines texts, stopped) := by
  rw [write, h]
  rfl

/-- The folders of the path come first, then the whole text, then the report. -/
theorem save_eq (f : Folder) (p : Path) {n : Nat} {records : List Record} {text : String}
    {stopped : Option RecordFault} (hwrite : write n records = (text, stopped)) :
    (save n p records : StateM Folder (Except HistoryFault Nat)) f =
      match f.makeFolders p.parent with
      | (.error fault, f₁) => (.error (.file fault), f₁)
      | (.ok (), f₁) =>
        match f₁.write p text.toUTF8 with
        | (.error fault, f₂) => (.error (.file fault), f₂)
        | (.ok (), f₂) =>
          (stopped.elim (.ok records.length) fun fault => .error (.record fault), f₂) := by
  have hmake : (FileAccess.makeFolders p.parent : StateM Folder _) f = f.makeFolders p.parent := rfl
  have hput (f₁ : Folder) : (FileAccess.write p text.toUTF8 : StateM Folder _) f₁ =
      f₁.write p text.toUTF8 := rfl
  simp only [save, bind, StateT.bind, hmake, hwrite]
  rcases f.makeFolders p.parent with ⟨_ | _, f₁⟩
  · rfl
  · simp only [StateT.bind, hput]
    rcases f₁.write p text.toUTF8 with ⟨_ | _, f₂⟩ <;> rfl

/-- Records that all have a line are saved in as many lines, and nothing else changes than the file
and the way to it. -/
theorem save_spec {f : Folder} {p : Path} {n : Nat} {records : List Record} {texts : List String}
    (hf : f.Accepts p) (hlines : lines n records = (texts, none)) :
    ∃ f', (save n p records : StateM Folder (Except HistoryFault Nat)) f =
        (.ok records.length, f') ∧
      f.Changed [(f.spot p, (Text.endedLines texts).toUTF8)] (f.way p.parent) f' := by
  obtain ⟨f₁, f₂, hmake, hput, hchanged⟩ := hf.save_spec (Text.endedLines texts).toUTF8
  refine ⟨f₂, ?_, hchanged⟩
  simp only [save_eq f p (write_eq hlines), hmake, hput, Option.elim_none]

/-- A saved history has a line for each record, and loading it gives what the records show. -/
theorem save_load {f : Folder} {p : Path} {levels : Nat} {records : List Record} (hf : f.Accepts p)
    (hrecords : ∀ r ∈ records, r.Printable levels) :
    ∃ f' texts, (save levels p records : StateM Folder (Except HistoryFault Nat)) f =
        (.ok records.length, f') ∧
      texts.length = records.length ∧ (∀ t ∈ texts, Text.Unbroken t.toList) ∧
      f.Changed [(f.spot p, (Text.endedLines texts).toUTF8)] (f.way p.parent) f' ∧
      (load p : StateM Folder (Except HistoryFault (List Value))) f' =
        (.ok (records.map Record.shown), f') := by
  obtain ⟨texts, hall⟩ := exists_forall₂ fun r hr => Record.exists_line (hrecords r hr)
  have hlines := lines_eq (hall.imp fun t r h => h.1)
  have hunbroken : ∀ t ∈ texts, Text.Unbroken t.toList := by
    have hwritten := unbroken_lines levels records
    rwa [hlines] at hwritten
  have hreads : List.Forall₂ ReadsLine texts (records.map Record.shown) :=
    List.forall₂_map_right_iff.2 (hall.imp fun t r h => h.2)
  obtain ⟨f', hsave, hchanged⟩ := save_spec hf hlines
  refine ⟨f', texts, hsave, hall.length_eq, hunbroken, hchanged, ?_⟩
  have hread : (FileAccess.read p : StateM Folder _) f' =
      (.ok (Text.endedLines texts).toUTF8, f') :=
    congrArg (·, f') (hf.read_of_changed hchanged)
  simp only [load, bind, StateT.bind, hread, Text.fromUTF8?_toUTF8,
    read?_endedLines hunbroken hreads]
  rfl

/-- A pivot and a mapping with text beyond the plain one, an array and no number. -/
theorem save_load_nested :
    ∃ f' texts, (save 4 ⟨false, ["runs", "trace.jsonl"]⟩
        [.step ⟨1, 1, 0, 0, 1, 3, .float (-2), [1, 4], [3, 2]⟩,
          .value (.dict (Value.keyed [("note", .text "a\n\"\x00é😀"),
            ("cells", .array (.list [.int 1, .float (0 / 0)])),
            ("more", .list [.null, .bool true, .dict (Value.keyed [])])]))] :
              StateM Folder (Except HistoryFault Nat)) {} = (.ok 2, f') ∧
      texts.length = 2 ∧ (∀ t ∈ texts, Text.Unbroken t.toList) ∧
      Folder.Changed {} [(["runs", "trace.jsonl"], (Text.endedLines texts).toUTF8)]
        [[], ["runs"]] f' ∧
      (load ⟨false, ["runs", "trace.jsonl"]⟩ :
        StateM Folder (Except HistoryFault (List Value))) f' =
        (.ok [.dict (Step.entries ⟨1, 1, 0, 0, 1, 3, .float (-2), [1, 4], [3, 2]⟩),
          .dict (Value.keyed [("note", .text "a\n\"\x00é😀"),
            ("cells", .list [.int 1, .float (0 / 0)]),
            ("more", .list [.null, .bool true, .dict (Value.keyed [])])])], f') := by
  refine @save_load {} ⟨false, ["runs", "trace.jsonl"]⟩ 4 [_, _] ?_ ?_
  · exact Folder.accepts_of_new (by decide) (by decide) (by simp)
  · simp only [List.forall_mem_cons]
    refine ⟨.step _ (by decide) (.float _ rfl), .mapping _ (by decide) ?_, by simp⟩
    simp only [List.forall_mem_cons]
    refine ⟨.text _, .array _ (.list _ ?_), .list _ ?_, by simp⟩
    · simp only [List.forall_mem_cons]
      exact ⟨.int 1 (by decide), .float _ rfl, by simp⟩
    · simp only [List.forall_mem_cons]
      exact ⟨.null, .bool true, .dict [] (by simp) (by simp), by simp⟩

end History

end TwoPhase
