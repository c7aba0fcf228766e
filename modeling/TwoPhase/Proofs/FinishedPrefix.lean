import TwoPhase.Proofs.HistoryFile
import TwoPhase.Proofs.UnwrittenValue

/-!
A history with a record that cannot be written. Saving fails and leaves what saving the records
before it leaves: a whole line for each of them, and nothing of the file that was there. Nothing is
assumed of the folder, so saving may also fail before it writes, and then for both lists alike.
Which records cannot be written is said without the printer: those that are no mapping, and those in
which a value without a text occurs. How deep the writer can go is arbitrary.
-/
namespace TwoPhase

namespace Value

def IsPair (v : Value) : Prop := ∃ key value, v.items? = some [key, value] ∧ key.isScalar

def IsMapping (v : Value) : Prop :=
  (∃ entries, v = .dict entries) ∨ ∃ parts, v.items? = some parts ∧ ∀ part ∈ parts, part.IsPair

end Value

namespace Record

open Value

theorem pair_eq_ok_iff {v : Value} : (∃ entry, pair v = .ok entry) ↔ v.IsPair := by
  unfold pair IsPair
  split
  case h_1 key value hitems =>
    by_cases hkey : key.isScalar
    · simp [hitems, hkey]
    · simp [hitems, hkey]
  case h_2 parts hnone hitems =>
    simp only [reduceCtorEq, exists_false, false_iff]
    rintro ⟨key, value, htwo, -⟩
    rw [hitems] at htwo
    exact hnone key value (Option.some.inj htwo)
  case h_3 hitems => simp [hitems]

theorem mapping_eq_ok_iff {v : Value} : (∃ entries, mapping v = .ok entries) ↔ v.IsMapping := by
  unfold mapping IsMapping
  split
  case h_1 entries => simp
  case h_2 hdict =>
    have hno : ¬∃ entries, v = .dict entries := fun ⟨entries, h⟩ => hdict entries h
    rw [or_iff_right hno]
    cases hitems : v.items? with
    | none => simp
    | some parts =>
      simp only [Option.some.injEq, exists_eq_left', ← pair_eq_ok_iff]
      constructor
      · rintro ⟨entries, h⟩ part hpart
        obtain ⟨entries, hpairs, -⟩ := bind_eq_ok.1 h
        exact exists_of_mapM_eq_ok hpairs hpart
      · intro h
        obtain ⟨entries, hpairs⟩ := exists_mapM_eq_ok h
        exact ⟨_, bind_eq_ok.2 ⟨entries, hpairs, rfl⟩⟩

/-- The records that cannot be written: no mapping, or a value without a text somewhere in it. -/
inductive Unconvertible (levels : Nat) : Record → Prop
  | notMapping {v : Value} (h : ¬v.IsMapping) : Unconvertible levels (.value v)
  | inMapping {n : Nat} {u v : Value} {entries : List (Value × Value)} (h : mapping v = .ok entries)
      (inside : u.Occurs n (.dict entries)) (hu : u.Unwritable (levels - n)) :
      Unconvertible levels (.value v)
  | inStep {n : Nat} {u : Value} {s : Step Value} (inside : u.Occurs n (.dict s.entries))
      (hu : u.Unwritable (levels - n)) : Unconvertible levels (.step s)

theorem print_mapError_fails_iff {levels : Nat} {v : Value} :
    (∃ fault, (Json.print levels v).mapError RecordFault.print = .error fault) ↔
      ∃ (n : Nat) (u : Value), u.Occurs n v ∧ u.Unwritable (levels - n) := by
  rw [← Json.print_fails_iff]
  cases Json.print levels v <;> simp [Except.mapError]

theorem line_fails_iff {levels : Nat} {r : Record} :
    (∃ fault, r.line levels = .error fault) ↔ r.Unconvertible levels := by
  cases r with
  | step s =>
    rw [line, print_mapError_fails_iff]
    constructor
    · rintro ⟨n, u, hinside, hu⟩
      exact .inStep hinside hu
    · rintro (_ | _ | ⟨hinside, hu⟩)
      exact ⟨_, _, hinside, hu⟩
  | value v =>
    rw [line, bind_fails_iff]
    constructor
    · rintro (⟨fault, hfault⟩ | ⟨entries, hmapping, hprint⟩)
      · refine .notMapping fun hv => ?_
        obtain ⟨entries, hentries⟩ := mapping_eq_ok_iff.2 hv
        rw [hentries] at hfault
        cases hfault
      · obtain ⟨n, u, hinside, hu⟩ := print_mapError_fails_iff.1 hprint
        exact .inMapping hmapping hinside hu
    · rintro (hv | ⟨hmapping, hinside, hu⟩)
      · cases hmapping : mapping v with
        | error fault => exact .inl ⟨fault, rfl⟩
        | ok entries => exact absurd (mapping_eq_ok_iff.1 ⟨entries, hmapping⟩) hv
      · exact .inr ⟨_, hmapping, print_mapError_fails_iff.2 ⟨_, _, hinside, hu⟩⟩

theorem exists_line_of_not_unconvertible {levels : Nat} {r : Record}
    (h : ¬r.Unconvertible levels) : ∃ text, r.line levels = .ok text := by
  cases hline : r.line levels with
  | error fault => exact absurd (line_fails_iff.1 ⟨fault, hline⟩) h
  | ok text => exact ⟨text, rfl⟩

end Record

namespace History

variable {f f' : Folder} {p : Path} {levels : Nat} {done : List Record} {r : Record}
  {texts : List String} {fault : RecordFault}

theorem lines_append_of_fails
    (hdone : List.Forall₂ (fun t d => d.line levels = .ok t) texts done)
    (hr : r.line levels = .error fault) (rest : List Record) :
    lines levels (done ++ r :: rest) = (texts, some fault) := by
  induction hdone with
  | nil => rw [List.nil_append, lines, hr]
  | cons hline _ ih => rw [List.cons_append, lines, hline, ih]

/-- A fault of a record leaves the lines of the records before it, as saving these alone does. The
file access fails for both alike, and not if a file was there or one can be put there. -/
theorem save_append_of_unconvertible (f : Folder) (p : Path) (rest : List Record)
    (hdone : ∀ d ∈ done, ¬d.Unconvertible levels) (hr : r.Unconvertible levels) :
    ∃ texts f', List.Forall₂ (fun t d => d.line levels = .ok t) texts done ∧
      ((∃ fault, (save levels p done : StateM Folder (Except HistoryFault Nat)) f =
            (.error (.file fault), f') ∧
          (save levels p (done ++ r :: rest) : StateM Folder (Except HistoryFault Nat)) f =
            (.error (.file fault), f') ∧
          ¬f.Accepts p ∧ (p.parts ≠ [] → ∀ previous, f.read p ≠ .ok previous)) ∨
        ∃ fault, r.line levels = .error fault ∧
          (save levels p done : StateM Folder (Except HistoryFault Nat)) f =
            (.ok done.length, f') ∧
          (save levels p (done ++ r :: rest) : StateM Folder (Except HistoryFault Nat)) f =
            (.error (.record fault), f') ∧
          f'.read p = .ok (Text.endedLines texts).toUTF8) := by
  obtain ⟨texts, hlines⟩ :=
    exists_forall₂ fun d hd => Record.exists_line_of_not_unconvertible (hdone d hd)
  obtain ⟨fault, hfault⟩ := Record.line_fails_iff.2 hr
  have hkept := save_eq f p (write_eq (lines_eq hlines))
  have hfails := save_eq f p (write_eq (lines_append_of_fails hlines hfault rest))
  have hrefused (hno : ¬f.Accepts p) : p.parts ≠ [] → ∀ previous, f.read p ≠ .ok previous :=
    fun hp _ hread => hno (Folder.accepts_of_read hp hread)
  rcases hmake : f.makeFolders p.parent with ⟨made, f₁⟩
  rw [hmake] at hkept hfails
  cases made with
  | error reason =>
    have hno : ¬f.Accepts p := by
      intro hf
      obtain ⟨f₂, f₃, hmake', -, -⟩ := hf.save_spec (Text.endedLines texts).toUTF8
      rw [hmake'] at hmake
      cases hmake
    exact ⟨texts, f₁, hlines, .inl ⟨reason, hkept, hfails, hno, hrefused hno⟩⟩
  | ok =>
    rcases hwrite : f₁.write p (Text.endedLines texts).toUTF8 with ⟨written, f₂⟩
    simp only [hwrite] at hkept hfails
    cases written with
    | error reason =>
      have hno : ¬f.Accepts p := by
        intro hf
        obtain ⟨f₃, f₄, hmake', hwrite', -⟩ := hf.save_spec (Text.endedLines texts).toUTF8
        obtain ⟨-, rfl⟩ := Prod.mk.inj (hmake.symm.trans hmake')
        rw [hwrite'] at hwrite
        cases hwrite
      exact ⟨texts, f₂, hlines, .inl ⟨reason, hkept, hfails, hno, hrefused hno⟩⟩
    | ok =>
      exact ⟨texts, f₂, hlines, .inr ⟨fault, hfault, hkept, hfails, Folder.read_of_write hwrite⟩⟩

/-- A set in an array, deep in the second of three records, over a file with other content. -/
theorem save_append_of_nested_set :
    ∃ f', (save 8 ⟨false, ["trace.jsonl"]⟩ [.value (.dict (Value.keyed [("a", .int 1)]))] :
          StateM Folder (Except HistoryFault Nat))
        { entries := [(["trace.jsonl"], .file "older\n".toUTF8)] } = (.ok 1, f') ∧
      (save 8 ⟨false, ["trace.jsonl"]⟩
          [.value (.dict (Value.keyed [("a", .int 1)])),
            .value (.dict (Value.keyed [("b", .int 2), ("c", .list [.null,
              .dict (Value.keyed [("d", .array (.list [.bool true, .set [.int 3]]))])])])),
            .value (.dict (Value.keyed [("e", .int 4)]))] :
          StateM Folder (Except HistoryFault Nat))
        { entries := [(["trace.jsonl"], .file "older\n".toUTF8)] } =
        (.error (.record (.print .set)), f') ∧
      f'.read ⟨false, ["trace.jsonl"]⟩ = .ok "\x7b\"a\": 1\x7d\n".toUTF8 := by
  have hkept : (Record.value (.dict (Value.keyed [("a", .int 1)]))).line 8 =
      .ok "\x7b\"a\": 1\x7d" := rfl
  have hfails : (Record.value (.dict (Value.keyed [("b", .int 2), ("c", .list [.null,
      .dict (Value.keyed [("d", .array (.list [.bool true, .set [.int 3]]))])])]))).line 8 =
      .error (.print .set) := rfl
  obtain ⟨texts, f', hlines, hfile | ⟨fault, hfault, hsaved, hstopped, hread⟩⟩ :=
    save_append_of_unconvertible
      { entries := [(["trace.jsonl"], .file "older\n".toUTF8)] } ⟨false, ["trace.jsonl"]⟩
      [.value (.dict (Value.keyed [("e", .int 4)]))]
      (List.forall_mem_singleton.2 fun h => by
        obtain ⟨fault, hfault⟩ := Record.line_fails_iff.2 h
        rw [hkept] at hfault
        cases hfault)
      (Record.line_fails_iff.1 ⟨_, hfails⟩)
  · obtain ⟨-, -, -, -, hnone⟩ := hfile
    exact absurd rfl (hnone (by decide) "older\n".toUTF8)
  · obtain rfl : RecordFault.print .set = fault := Except.error.inj (hfails.symm.trans hfault)
    obtain ⟨text, _, hline, hnil, rfl⟩ := List.forall₂_cons_right_iff.1 hlines
    rw [List.forall₂_nil_right_iff] at hnil
    obtain rfl : "\x7b\"a\": 1\x7d" = text := Except.ok.inj (hkept.symm.trans hline)
    rw [hnil] at hread
    exact ⟨f', hsaved, hstopped, hread⟩

end History

end TwoPhase
