import TwoPhase.Main
import TwoPhase.Proofs.FolderReads
import TwoPhase.Proofs.Keyed
import TwoPhase.Proofs.Loops
import TwoPhase.Proofs.MatrixForms

/-!
A constraint matrix in a text file against the same matrix in nested lists. The reader of text files
is assumed to drop the axes of length one, and a vector is taken for a row, so a single column of
several rows comes back lying down; every other matrix comes back as it was. What else the mapping
holds is arbitrary, and it may be one that does not load.
-/
namespace TwoPhase

namespace Tensor

variable {α β : Type} {h w : Nat}

theorem ext_entries {s t : Tensor α} (hshape : s.shape = t.shape)
    (hentries : s.entries = t.entries) : s = t := by
  obtain ⟨shape, entries, hsize⟩ := s
  obtain ⟨shape', entries', hsize'⟩ := t
  obtain rfl : shape = shape' := hshape
  obtain rfl : entries = entries' := hentries
  rfl

theorem mapM_ofMatrix {ε : Type} {f : α → Except ε β} {v : Matrix (Fin h) (Fin w) α}
    {a : Matrix (Fin h) (Fin w) β} (hf : ∀ i j, f (v i j) = .ok (a i j)) :
    (ofMatrix v).mapM f = .ok (ofMatrix a) := by
  have hentries : (ofMatrix v).entries.toList.mapM f = .ok (ofMatrix a).entries.toList := by
    simp only [ofMatrix, Array.toList_ofFn, List.ofFn_eq_map]
    refine mapM_eq_pure_of_forall₂ ?_
    rw [List.forall₂_map_left_iff, List.forall₂_map_right_iff, List.forall₂_same]
    exact fun k _ => hf k.divNat k.modNat
  have hsize : (ofMatrix a).entries.toList.toArray.size = (ofMatrix v).shape.foldr (· * ·) 1 :=
    (ofMatrix a).size_entries
  rw [mapM, hentries]
  exact dif_pos hsize

def squeezed (shape : List Nat) : List Nat :=
  if (shape.filter (· ≠ 1)).isEmpty then [1] else shape.filter (· ≠ 1)

theorem foldr_squeezed (shape : List Nat) :
    (squeezed shape).foldr (· * ·) 1 = shape.foldr (· * ·) 1 := by
  have hfilter : (shape.filter (· ≠ 1)).foldr (· * ·) 1 = shape.foldr (· * ·) 1 := by
    induction shape with
    | nil => rfl
    | cons n shape ih =>
      by_cases hn : n = 1
      · rw [List.filter_cons_of_neg (by simpa using hn), ih, List.foldr_cons, hn, Nat.one_mul]
      · rw [List.filter_cons_of_pos (by simpa using hn), List.foldr_cons, ih, List.foldr_cons]
  unfold squeezed
  split
  case isTrue hempty =>
    rw [← hfilter, List.isEmpty_iff.1 hempty]
    rfl
  case isFalse => exact hfilter

theorem shape_squeeze (t : Tensor α) : t.squeeze.shape = squeezed t.shape := by
  have hsize := t.size_entries.trans (foldr_squeezed t.shape).symm
  exact congrArg (fun r : Option (Tensor α) => (r.getD _).shape) (reshape?_eq_some t hsize)

theorem entries_squeeze (t : Tensor α) : t.squeeze.entries = t.entries := by
  have hsize := t.size_entries.trans (foldr_squeezed t.shape).symm
  exact congrArg (fun r : Option (Tensor α) => (r.getD _).entries) (reshape?_eq_some t hsize)

end Tensor

namespace Config

variable {h w : Nat} (a : Matrix (Fin h) (Fin w) Float)

theorem asRow_ofMatrix : asRow (Tensor.ofMatrix a) = Tensor.ofMatrix a := rfl

theorem asRow_vector {t : Tensor Float} {n : Nat} (ht : t.shape = [n]) (hn : n ≠ 0) :
    (asRow t).shape = [1, n] ∧ (asRow t).entries = t.entries := by
  obtain ⟨shape, entries, hsize⟩ := t
  subst ht
  have hsize' : entries.size = [1, n].foldr (· * ·) 1 := by simpa using hsize
  have hreshape := Tensor.reshape?_eq_some ⟨[n], entries, hsize⟩ hsize'
  simp only [asRow, if_neg hn, hreshape, Option.getD_some, and_self]

/-- What is read of a matrix that is no column of several rows is the matrix. -/
theorem asRow_squeeze (hw : 0 < w) (hcolumn : ¬(w = 1 ∧ 1 < h)) (hh : 0 < h) :
    asRow (Tensor.ofMatrix a).squeeze = Tensor.ofMatrix a := by
  have hshape := Tensor.shape_squeeze (Tensor.ofMatrix a)
  have hentries := Tensor.entries_squeeze (Tensor.ofMatrix a)
  rw [show (Tensor.ofMatrix a).shape = [h, w] from rfl] at hshape
  by_cases hone : h = 1
  · subst hone
    have hvector : Tensor.squeezed [1, w] = [w] := by
      by_cases hw' : w = 1 <;> simp [Tensor.squeezed, hw']
    obtain ⟨hrow, hsame⟩ := asRow_vector (hshape.trans hvector) (Nat.ne_of_gt hw)
    exact Tensor.ext_entries hrow (hsame.trans hentries)
  · have hw' : w ≠ 1 := fun hw' => hcolumn ⟨hw', by omega⟩
    have hkept : Tensor.squeezed [h, w] = [h, w] := by simp [Tensor.squeezed, hone, hw']
    rw [Tensor.ext_entries (hshape.trans hkept) hentries, asRow_ofMatrix]

/-- A column of several rows is read as a row. -/
theorem shape_asRow_squeeze (hw : w = 1) (hh : 1 < h) :
    (asRow (Tensor.ofMatrix a).squeeze).shape = [1, h] := by
  subst hw
  have hvector : Tensor.squeezed [h, 1] = [h] := by simp [Tensor.squeezed, Nat.ne_of_gt hh]
  exact (asRow_vector ((Tensor.shape_squeeze _).trans hvector) (by omega)).1

variable {a} {readers : Readers} {f : Folder} {base path : Path} {key : String}
  {content : ByteArray}
  {entries entries' : List (Value × Value)} {name value : Value}

theorem reshape?_flatten :
    (Tensor.ofList (rowLists a).flatten).reshape? [h, w] = some (Tensor.ofMatrix a) := by
  have hentries : (rowLists a).flatten.toArray = (Tensor.ofMatrix a).entries := by
    rw [← Tensor.toList_ofMatrix]
  have hsize : (Tensor.ofList (rowLists a).flatten).entries.size = [h, w].foldr (· * ·) 1 := by
    exact (congrArg Array.size hentries).trans (Tensor.ofMatrix a).size_entries
  rw [Tensor.reshape?_eq_some _ hsize]
  exact congrArg some (Tensor.ext_entries rfl hentries)

theorem ofRows?_rowLists (hh : 0 < h) :
    Delimited.ofRows? (rowLists a) = some (Tensor.ofMatrix a).squeeze := by
  have hwidth : ∀ row ∈ rowLists a, row.length = w := by simp [rowLists]
  have hheight : (rowLists a).length = h := by simp [rowLists]
  have hreshape := reshape?_flatten (a := a)
  unfold Delimited.ofRows?
  split
  case h_1 hrows =>
    rw [hrows] at hheight
    exact absurd hheight (Nat.ne_of_lt hh)
  case h_2 first rest hrows =>
    have hfirst := hwidth first (hrows ▸ List.mem_cons_self)
    have hall : ((rowLists a).all fun row => decide (row.length = first.length)) = true :=
      List.all_eq_true.2 fun row hrow => decide_eq_true ((hwidth row hrow).trans hfirst.symm)
    rw [if_pos hall, hheight, hfirst, hreshape, Option.map_some]

theorem present_of_read (hread : f.read path = .ok content) : f.present path = true := by
  rw [Folder.read] at hread
  rw [Folder.present]
  cases hfind : f.find path with
  | ok entry => rfl
  | error fault =>
    rw [hfind] at hread
    exact absurd hread (by simp [bind, Except.bind])

/-- A text with a line for each row of a matrix, its entries as decimals between commas. -/
def HoldsRows (content : ByteArray) (a : Matrix (Fin h) (Fin w) Float) : Prop :=
  ∃ s, String.fromUTF8? content = some s ∧
    (Delimited.dataLines s).mapM Delimited.row? = some (rowLists a)

/-- A reader of text files that takes the rows of a matrix as they are and drops its axes of length
one. -/
def Squeezes (read : ByteArray → Except String (Tensor Float)) : Prop :=
  ∀ {h w : Nat} (a : Matrix (Fin h) (Fin w) Float) (content : ByteArray), 0 < h → 0 < w →
    HoldsRows content a → read content = .ok (Tensor.ofMatrix a).squeeze

theorem squeezes_delimited : Squeezes Program.readers.delimited := by
  intro h w a content hh _ hrows
  obtain ⟨s, hs, hrows⟩ := hrows
  have hread : Delimited.read? content = some (Tensor.ofMatrix a).squeeze := by
    rw [Delimited.read?, hs, Option.bind_eq_bind, Option.bind_some, hrows]
    exact ofRows?_rowLists hh
  simp only [Program.readers, hread]
  rfl

/-- What a text file with the rows of a matrix is read as. -/
theorem look_arrayOfFile (hreader : Squeezes readers.delimited) (hsuffix : path.suffix = ".csv")
    (hread : f.read path = .ok content) (hh : 0 < h) (hw : 0 < w) (hrows : HoldsRows content a) :
    f.look (arrayOfFile readers path : ExceptT ConfigFault (StateM Folder) _) =
      .ok (Tensor.ofMatrix a).squeeze := by
  have hpresent : f.look (liftM (FileAccess.present path : StateM Folder _) :
      ExceptT ConfigFault (StateM Folder) _) = .ok true :=
    congrArg Except.ok (present_of_read hread)
  have hnpy : path.suffix ≠ ".npy" := by
    rw [hsuffix]
    decide
  have hcsv : path.suffix = ".csv" ∨ path.suffix = ".txt" := .inl hsuffix
  unfold arrayOfFile
  rw [Folder.look_bind_of_ok (fun _ => rfl) hpresent]
  simp only [Bool.not_true, Bool.false_eq_true, if_false, if_neg hnpy, if_pos hcsv]
  rw [Folder.look_bind_of_ok (readsOnly_bytes path) (look_bytes hread),
    hreader a content hh hw hrows]
  rfl

/-- The array of an entry depends on its two keys only. -/
theorem array?_congr (hname : Value.lookup (key ++ "_path") entries =
      Value.lookup (key ++ "_path") entries')
    (hvalue : Value.lookup key entries = Value.lookup key entries') :
    (array? readers base (.dict entries) key : ExceptT ConfigFault (StateM Folder) _) =
      array? readers base (.dict entries') key := by
  simp only [array?, given?, field?, hname, hvalue]

theorem given?_eq (hvalue : Value.lookup key entries = some value) (hnull : value ≠ .null) :
    given? (.dict entries) key = .ok (some value) := by
  simp only [given?, field?, hvalue, bind, Except.bind]
  split
  case h_1 heq => exact absurd (Option.some.inj heq) hnull
  case h_2 => rfl

theorem look_array?_file {t : Tensor Float}
    (hname : Value.lookup (key ++ "_path") entries = some name) (hnull : name ≠ .null)
    (ht : f.look (arrayOfFile readers (base.join (Path.ofString (pathText name))) :
      ExceptT ConfigFault (StateM Folder) _) = .ok t) :
    f.look (array? readers base (.dict entries) key : ExceptT ConfigFault (StateM Folder) _) =
      .ok (some t) := by
  unfold array?
  rw [look_lift_bind (given?_eq hname hnull)]
  simp only
  rw [Folder.look_bind_of_ok (readsOnly_arrayOfFile readers _) ht]
  rfl

theorem look_array?_lists {t : Tensor Float}
    (hname : Value.lookup (key ++ "_path") entries = none)
    (hvalue : Value.lookup key entries = some value) (hnull : value ≠ .null)
    (ht : value.floats = .ok t) :
    f.look (array? readers base (.dict entries) key : ExceptT ConfigFault (StateM Folder) _) =
      .ok (some t) := by
  have hnone : given? (.dict entries) (key ++ "_path") = .ok none := by
    simp only [given?, field?, hname]
    rfl
  have hlift : value.floats.mapError ConfigFault.array = .ok t := by rw [ht]; rfl
  unfold array?
  rw [look_lift_bind hnone]
  simp only
  rw [look_lift_bind (given?_eq hvalue hnull)]
  simp only
  rw [look_lift_bind hlift]
  rfl

theorem look_readProblem (base : Path) (v : Value) :
    f.look (readProblem readers base v : ExceptT ConfigFault (StateM Folder) _) = (do
      match ← f.look (array? readers base v "c" : ExceptT ConfigFault (StateM Folder) _) with
      | none => .error .missingCost
      | some c =>
        let a ← f.look (array? readers base v "A" : ExceptT ConfigFault (StateM Folder) _)
        let a' ← f.look (array? readers base v "A_eq" : ExceptT ConfigFault (StateM Folder) _)
        let b ← f.look (array? readers base v "b" : ExceptT ConfigFault (StateM Folder) _)
        let b' ← f.look (array? readers base v "b_eq" : ExceptT ConfigFault (StateM Folder) _)
        let constant ← readOffset v
        (LinearProgram.ofTensors c (a.map asRow) b (a'.map asRow) b' constant).mapError
          .mismatch) := by
  unfold readProblem
  rw [Folder.look_bind (readsOnly_array? readers base v "c")]
  congr 1
  funext c
  cases c with
  | none => rfl
  | some c =>
    simp only [Folder.look_bind (readsOnly_array? readers base v _),
      Folder.look_bind (readsOnly_lift _)]
    rfl

/-- Of two mappings one names a file for a matrix where the other has a value; they agree on the
rest. -/
structure Moves (kind : BlockKind) (name value : Value)
    (fromFile inline : List (Value × Value)) : Prop where
  name_eq : Value.lookup (kind.matrixName ++ "_path") fromFile = some name
  value_eq : Value.lookup kind.matrixName inline = some value
  no_name : Value.lookup (kind.matrixName ++ "_path") inline = none
  agree : ∀ key, key ≠ kind.matrixName → key ≠ kind.matrixName ++ "_path" →
    Value.lookup key fromFile = Value.lookup key inline

variable {kind : BlockKind} {fromFile inline : List (Value × Value)} {t t' : Tensor Float}

theorem moves_keyed (kind : BlockKind) (name value : Value) {rest : List (String × Value)}
    (hrest : rest.lookup (kind.matrixName ++ "_path") = none) :
    Moves kind name value (Value.keyed ((kind.matrixName ++ "_path", name) :: rest))
      (Value.keyed ((kind.matrixName, value) :: rest)) where
  name_eq := by rw [Value.lookup_keyed, List.lookup_cons, beq_self_eq_true]
  value_eq := by rw [Value.lookup_keyed, List.lookup_cons, beq_self_eq_true]
  no_name := by
    have hne : (kind.matrixName ++ "_path" == kind.matrixName) = false := by cases kind <;> decide
    rw [Value.lookup_keyed, List.lookup_cons, hne]
    exact hrest
  agree key hkey hpath := by
    rw [Value.lookup_keyed, Value.lookup_keyed, List.lookup_cons, List.lookup_cons,
      beq_false_of_ne hkey, beq_false_of_ne hpath]

theorem Moves.array?_eq (hmoves : Moves kind name value fromFile inline) (base : Path)
    (key : String) (hkey : key ∉ [kind.matrixName, kind.matrixName ++ "_path"])
    (hpath : key ++ "_path" ∉ [kind.matrixName, kind.matrixName ++ "_path"]) :
    (array? readers base (.dict fromFile) key : ExceptT ConfigFault (StateM Folder) _) =
      array? readers base (.dict inline) key := by
  simp only [List.mem_cons, List.not_mem_nil, or_false, not_or] at hkey hpath
  exact array?_congr (hmoves.agree _ hpath.1 hpath.2) (hmoves.agree _ hkey.1 hkey.2)

theorem Moves.readOffset_eq (hmoves : Moves kind name value fromFile inline) :
    readOffset (.dict fromFile) = readOffset (.dict inline) := by
  have hoffset := hmoves.agree "offset" (by cases kind <;> decide) (by cases kind <;> decide)
  have hlambda := hmoves.agree "lambda" (by cases kind <;> decide) (by cases kind <;> decide)
  simp only [readOffset, field?, hoffset, hlambda]

/-- Arrays that are the same rows make the same problem. -/
theorem Moves.look_eq (hmoves : Moves kind name value fromFile inline)
    (hfile : f.look (array? readers base (.dict fromFile) kind.matrixName :
      ExceptT ConfigFault (StateM Folder) _) = .ok (some t))
    (hinline : f.look (array? readers base (.dict inline) kind.matrixName :
      ExceptT ConfigFault (StateM Folder) _) = .ok (some t'))
    (hrows : asRow t = asRow t') :
    f.look (readProblem readers base (.dict fromFile) : ExceptT ConfigFault (StateM Folder) _) =
      f.look (readProblem readers base (.dict inline) : ExceptT ConfigFault (StateM Folder) _) := by
  rw [look_readProblem, look_readProblem, hmoves.readOffset_eq,
    hmoves.array?_eq base "c" (by cases kind <;> decide) (by cases kind <;> decide),
    hmoves.array?_eq base "b" (by cases kind <;> decide) (by cases kind <;> decide),
    hmoves.array?_eq base "b_eq" (by cases kind <;> decide) (by cases kind <;> decide)]
  cases kind with
  | inequality =>
    rw [BlockKind.matrixName] at hfile hinline
    rw [hmoves.array?_eq base "A_eq" (by decide) (by decide), hfile, hinline]
    simp only [bind, Except.bind, Option.map_some, hrows]
  | equality =>
    rw [BlockKind.matrixName] at hfile hinline
    rw [hmoves.array?_eq base "A" (by decide) (by decide), hfile, hinline]
    simp only [bind, Except.bind, Option.map_some, hrows]

end Config

theorem Block.ofTensors_row {kind : BlockKind} {m n : Nat} {t t' : Tensor Float}
    {b : Option (Tensor Float)} {block : Block Float n} (hm : 1 < m) (ht : t.shape = [1, m])
    (ht' : t'.shape = [m, 1]) (h : ofTensors kind n (some t') b = .ok block) :
    ofTensors kind n (some t) b = .error (.columns kind m 1) := by
  obtain ⟨shape, entries, hsize⟩ := t
  obtain ⟨shape', entries', hsize'⟩ := t'
  subst ht ht'
  have hzero : m ≠ 0 := by omega
  obtain ⟨g, hg, -⟩ := bind_eq_ok.1 h
  have hn : 1 = n := by
    by_contra hn
    simp [matrixOfTensor, hzero, hn] at hg
  subst hn
  have hone : m ≠ 1 := by omega
  simp [ofTensors, matrixOfTensor, hone, bind, Except.bind]

namespace Config

variable {readers : Readers} {f : Folder} {base : Path} {kind : BlockKind} {name value : Value}
  {content : ByteArray} {fromFile inline : List (Value × Value)} {t t' : Tensor Float}

theorem exists_parts {v : Value} {p : LinearProgram Float}
    (h : f.look (readProblem readers base v : ExceptT ConfigFault (StateM Folder) _) = .ok p) :
    ∃ c a a' b b' constant,
      f.look (array? readers base v "c" : ExceptT ConfigFault (StateM Folder) _) = .ok (some c) ∧
      f.look (array? readers base v "A" : ExceptT ConfigFault (StateM Folder) _) = .ok a ∧
      f.look (array? readers base v "A_eq" : ExceptT ConfigFault (StateM Folder) _) = .ok a' ∧
      f.look (array? readers base v "b" : ExceptT ConfigFault (StateM Folder) _) = .ok b ∧
      f.look (array? readers base v "b_eq" : ExceptT ConfigFault (StateM Folder) _) = .ok b' ∧
      readOffset v = .ok constant ∧
      LinearProgram.ofTensors c (a.map asRow) b (a'.map asRow) b' constant = .ok p := by
  rw [look_readProblem] at h
  obtain ⟨c, hc, h⟩ := bind_eq_ok.1 h
  cases c with
  | none => exact absurd h (by simp)
  | some c =>
    obtain ⟨a, ha, h⟩ := bind_eq_ok.1 h
    obtain ⟨a', ha', h⟩ := bind_eq_ok.1 h
    obtain ⟨b, hb, h⟩ := bind_eq_ok.1 h
    obtain ⟨b', hb', h⟩ := bind_eq_ok.1 h
    obtain ⟨constant, hconstant, h⟩ := bind_eq_ok.1 h
    refine ⟨c, a, a', b, b', constant, hc, ha, ha', hb, hb', hconstant, ?_⟩
    cases hp : LinearProgram.ofTensors c (a.map asRow) b (a'.map asRow) b' constant with
    | ok q => simpa [hp, Except.mapError] using h
    | error e => simp [hp, Except.mapError] at h

/-- A column that is read as a row does not fit. -/
theorem Moves.look_error {m : Nat} {p : LinearProgram Float}
    (hmoves : Moves kind name value fromFile inline)
    (hfile : f.look (array? readers base (.dict fromFile) kind.matrixName :
      ExceptT ConfigFault (StateM Folder) _) = .ok (some t))
    (hinline : f.look (array? readers base (.dict inline) kind.matrixName :
      ExceptT ConfigFault (StateM Folder) _) = .ok (some t'))
    (hm : 1 < m) (ht : (asRow t).shape = [1, m]) (ht' : (asRow t').shape = [m, 1])
    (h : f.look (readProblem readers base (.dict inline) : ExceptT ConfigFault (StateM Folder) _) =
      .ok p) :
    f.look (readProblem readers base (.dict fromFile) : ExceptT ConfigFault (StateM Folder) _) =
      .error (.mismatch (.columns kind m 1)) := by
  obtain ⟨c, a, a', b, b', constant, hc, ha, ha', hb, hb', hconstant, hprogram⟩ := exists_parts h
  obtain ⟨⟨cost, hcost_ne⟩, hcost, hprogram⟩ := bind_eq_ok.1 hprogram
  obtain ⟨upper, hupper, hprogram⟩ := bind_eq_ok.1 hprogram
  obtain ⟨equal, hequal, -⟩ := bind_eq_ok.1 hprogram
  rw [look_readProblem, hmoves.readOffset_eq,
    hmoves.array?_eq base "c" (by cases kind <;> decide) (by cases kind <;> decide),
    hmoves.array?_eq base "b" (by cases kind <;> decide) (by cases kind <;> decide),
    hmoves.array?_eq base "b_eq" (by cases kind <;> decide) (by cases kind <;> decide)]
  cases kind with
  | inequality =>
    rw [BlockKind.matrixName] at hfile hinline
    obtain rfl : a = some t' := Except.ok.inj (ha.symm.trans hinline)
    have herror := Block.ofTensors_row hm ht ht' hupper
    rw [hmoves.array?_eq base "A_eq" (by decide) (by decide), hfile]
    simp only [hc, ha', hb, hb', hconstant, bind, Except.bind, Option.map_some,
      LinearProgram.ofTensors, hcost, herror]
    rfl
  | equality =>
    rw [BlockKind.matrixName] at hfile hinline
    obtain rfl : a' = some t' := Except.ok.inj (ha'.symm.trans hinline)
    have herror := Block.ofTensors_row hm ht ht' hequal
    rw [hmoves.array?_eq base "A" (by decide) (by decide), hfile]
    simp only [hc, ha, hb, hb', hconstant, bind, Except.bind, Option.map_some,
      LinearProgram.ofTensors, hcost, hupper, herror]
    rfl

def Stands {h w : Nat} (cells : Matrix (Fin h) (Fin w) Value) (a : Matrix (Fin h) (Fin w) Float) :
    Prop :=
  ∀ i j, (cells i j).cells = .ok (.scalar (cells i j)) ∧ (cells i j).cellFloat = .ok (a i j)

theorem Stands.floats_eq {h w : Nat} {cells : Matrix (Fin h) (Fin w) Value}
    {a : Matrix (Fin h) (Fin w) Float} (hcells : Stands cells a) (hh : 0 < h) (hw : 0 < w) :
    (Value.list ((rowLists cells).map .list)).floats = .ok (Tensor.ofMatrix a) := by
  rw [Value.floats, Value.cells_rowLists hh hw cells fun i j => (hcells i j).1]
  exact Tensor.mapM_ofMatrix fun i j => (hcells i j).2

/-- A matrix in a file makes the problem that its nested lists make, unless it is a column of
several rows, of which the file makes none. -/
theorem problem_of_file {m n : Nat} (hreader : Squeezes readers.delimited) (hm : 0 < m) (hn : 0 < n)
    {a : Matrix (Fin m) (Fin n) Float} {cells : Matrix (Fin m) (Fin n) Value}
    (hcells : Stands cells a) (hname : name ≠ .null)
    (hmoves : Moves kind name (.list ((rowLists cells).map .list)) fromFile inline)
    (hsuffix : (base.join (Path.ofString (pathText name))).suffix = ".csv")
    (hread : f.read (base.join (Path.ofString (pathText name))) = .ok content)
    (hrows : HoldsRows content a) :
    (¬(n = 1 ∧ 1 < m) →
      (readProblem readers base (.dict fromFile) : ExceptT ConfigFault (StateM Folder) _).run f =
        (readProblem readers base (.dict inline) : ExceptT ConfigFault (StateM Folder) _).run f) ∧
    (n = 1 → 1 < m → ∀ p,
      (readProblem readers base (.dict inline) : ExceptT ConfigFault (StateM Folder) _).run f =
        (.ok p, f) →
      (readProblem readers base (.dict fromFile) : ExceptT ConfigFault (StateM Folder) _).run f =
        (.error (.mismatch (.columns kind m 1)), f)) := by
  have hfromFile := look_array?_file hmoves.name_eq hname
    (look_arrayOfFile hreader hsuffix hread hm hn hrows)
  have hinline : f.look (array? readers base (.dict inline) kind.matrixName :
      ExceptT ConfigFault (StateM Folder) _) = .ok (some (Tensor.ofMatrix a)) :=
    look_array?_lists hmoves.no_name hmoves.value_eq (by simp) (hcells.floats_eq hm hn)
  refine ⟨fun hcolumn => ?_, fun hone hlt p hp => ?_⟩
  · rw [(readsOnly_readProblem readers base _).run_eq,
      (readsOnly_readProblem readers base _).run_eq,
      hmoves.look_eq hfromFile hinline (asRow_squeeze a hn hcolumn hm)]
  · have hlook := (Prod.mk.inj (((readsOnly_readProblem readers base _).run_eq f).symm.trans hp)).1
    rw [(readsOnly_readProblem readers base _).run_eq, hmoves.look_error hfromFile hinline hlt
      (shape_asRow_squeeze a hone hlt) (congrArg (fun k => [m, k]) hone) hlook]

def oneFile (name text : String) : Folder := { entries := [([name], .file text.toUTF8)] }

/-- Two rows of two integers, in a file and in nested lists. -/
theorem problem_of_file_square :
    (readProblem Program.readers ⟨true, []⟩ (.dict (Value.keyed [("A_path", .text "A.csv"),
        ("c", .list [.int 1, .int 1]), ("b", .list [.int 3, .int 7])])) :
          ExceptT ConfigFault (StateM Folder) _).run (oneFile "A.csv" "1,2\n3,4\n") =
      (readProblem Program.readers ⟨true, []⟩ (.dict (Value.keyed
        [("A", .list [.list [.int 1, .int 2], .list [.int 3, .int 4]]),
          ("c", .list [.int 1, .int 1]), ("b", .list [.int 3, .int 7])])) :
            ExceptT ConfigFault (StateM Folder) _).run (oneFile "A.csv" "1,2\n3,4\n") := by
  have hcells : Stands ![![.int 1, .int 2], ![.int 3, .int 4]] ![![1, 2], ![3, 4]] := by
    intro i j
    fin_cases i <;> fin_cases j <;> exact ⟨rfl, rfl⟩
  have hrows : HoldsRows "1,2\n3,4\n".toUTF8 ![![1, 2], ![3, 4]] := ⟨_, rfl, rfl⟩
  have hrest : [("c", Value.list [.int 1, .int 1]), ("b", .list [.int 3, .int 7])].lookup
      (BlockKind.inequality.matrixName ++ "_path") = none := rfl
  have hmoves := moves_keyed .inequality (.text "A.csv")
    (.list [.list [.int 1, .int 2], .list [.int 3, .int 4]]) hrest
  exact (problem_of_file squeezes_delimited (by decide) (by decide) hcells (by simp) hmoves rfl rfl
    hrows).1 (by decide)

/-- One column of two rows: the nested lists make a problem, the file does not. -/
theorem column_not_problem_of_file :
    (∃ p, (readProblem Program.readers ⟨true, []⟩ (.dict (Value.keyed
        [("A", .list [.list [.int 1], .list [.int 2]]), ("c", .list [.int 1]),
          ("b", .list [.int 1, .int 2])])) : ExceptT ConfigFault (StateM Folder) _).run
            (oneFile "A.csv" "1\n2\n") = (.ok p, oneFile "A.csv" "1\n2\n")) ∧
      (readProblem Program.readers ⟨true, []⟩ (.dict (Value.keyed
        [("A_path", .text "A.csv"), ("c", .list [.int 1]), ("b", .list [.int 1, .int 2])])) :
          ExceptT ConfigFault (StateM Folder) _).run (oneFile "A.csv" "1\n2\n") =
            (.error (.mismatch (.columns .inequality 2 1)), oneFile "A.csv" "1\n2\n") := by
  simp only [(readsOnly_readProblem _ _ _).run_eq, look_readProblem, array?, given?, field?,
    readOffset, Value.lookup_keyed]
  exact ⟨⟨_, rfl⟩, rfl⟩

end Config

end TwoPhase
