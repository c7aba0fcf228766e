import Mathlib.Data.List.Basic
import Mathlib.Data.List.Infix
import TwoPhase.Folder

/-!
What reading, creating folders and writing do to a folder. The names of a path lead along places,
double dots back to the place above. A file can be put at the end of a path if no file stands on
the way and no folder at the end; then the places on the way become folders, the last one holds the
file, and nothing else changes. The folder may hold entries whose own folder is missing.
-/
namespace TwoPhase

namespace Folder

variable {f f' : Folder} {p : Path} {place q : List String} {names : List String}
  {content : ByteArray}

theorem lookup_filter_ne {β γ : Type} [BEq β] [LawfulBEq β] [DecidableEq β] {k k' : β}
    (hk : k' ≠ k) (entries : List (β × γ)) :
    (entries.filter fun e => e.1 ≠ k).lookup k' = entries.lookup k' := by
  induction entries with
  | nil => rfl
  | cons e entries ih =>
    by_cases he : e.1 = k
    · have hne : (k' == e.1) = false := by simpa [he] using hk
      rw [List.filter_cons_of_neg (by simpa using he), ih, List.lookup_cons, hne]
    · rw [List.filter_cons_of_pos (by simpa using he), List.lookup_cons, List.lookup_cons, ih]

theorem ne_nil_of_not_folder (h : f.get? place ≠ some .folder) : place ≠ [] := by
  rintro rfl
  exact h rfl

theorem get?_put (hplace : place ≠ []) (entry : FileEntry) (q : List String) :
    (f.put place entry).get? q = if q = place then some entry else f.get? q := by
  by_cases hq : q = place
  · subst hq
    simp [get?, put, hplace]
  · have hne : (q == place) = false := by simpa using hq
    rw [if_neg hq, get?, get?, put, List.lookup_cons, hne, lookup_filter_ne hq]

def follow (place : List String) (name : String) : List String :=
  if name = ".." then place.dropLast else place ++ [name]

def way (f : Folder) (p : Path) : List (List String) := (f.current.join p).parts.scanl follow []

def spot (f : Folder) (p : Path) : List String := (f.current.join p).parts.foldl follow []

def IsOpen (f : Folder) (place : List String) : Prop := ∀ q, q <+: place → f.get? q = some .folder

theorem isOpen_nil (f : Folder) : f.IsOpen [] := by
  intro q hq
  rw [List.prefix_nil.1 hq]
  rfl

theorem IsOpen.dropLast (h : f.IsOpen place) : f.IsOpen place.dropLast :=
  fun q hq => h q (hq.trans (List.dropLast_prefix place))

theorem IsOpen.append {name : String} (h : f.IsOpen place)
    (hname : f.get? (place ++ [name]) = some .folder) : f.IsOpen (place ++ [name]) := by
  intro q hq
  rcases List.prefix_concat_iff.1 hq with rfl | hq
  · exact hname
  · exact h q hq

/-- Some places hold files now, others have become folders, and nothing else has changed. Of two
files at one place the first counts. -/
structure Changed (f : Folder) (files : List (List String × ByteArray))
    (opened : List (List String)) (f' : Folder) : Prop where
  current_eq : f'.current = f.current
  get?_eq : ∀ q, f'.get? q =
    match files.lookup q with
    | some content => some (.file content)
    | none => if q ∈ opened then some .folder else f.get? q

theorem Changed.refl (f : Folder) : f.Changed [] [] f := ⟨rfl, fun _ => rfl⟩

/-- Changes add up if what is opened later holds no file that was put before. -/
theorem Changed.trans {files files' : List (List String × ByteArray)}
    {opened opened' : List (List String)} {f'' : Folder} (h : f.Changed files opened f')
    (h' : f'.Changed files' opened' f'') (hfree : ∀ q ∈ opened', files.lookup q = none) :
    f.Changed (files' ++ files) (opened ++ opened') f'' where
  current_eq := h'.current_eq.trans h.current_eq
  get?_eq q := by
    rw [h'.get?_eq, List.lookup_append]
    cases files'.lookup q with
    | some content => rfl
    | none =>
      by_cases hq : q ∈ opened'
      · simp [hq, hfree q hq]
      · simp only [hq, if_false, h.get?_eq, Option.none_or, List.mem_append, or_false]

/-- Changes at different places count in any order. -/
theorem Changed.trans_apart {files files' : List (List String × ByteArray)}
    {opened opened' : List (List String)} {f'' : Folder} (h : f.Changed files opened f')
    (h' : f'.Changed files' opened' f'') (hfree : ∀ q ∈ opened', files.lookup q = none)
    (hapart : ∀ w ∈ files', files.lookup w.1 = none) :
    f.Changed (files ++ files') (opened ++ opened') f'' where
  current_eq := h'.current_eq.trans h.current_eq
  get?_eq q := by
    have hlookup : (files ++ files').lookup q = (files' ++ files).lookup q := by
      rw [List.lookup_append, List.lookup_append]
      cases hq : files'.lookup q with
      | none => simp
      | some content =>
        obtain ⟨_, _, hmem, -⟩ := List.lookup_eq_some_iff.1 hq
        have hnone := hapart (q, content) (by simp [hmem])
        simp [hnone]
    rw [(h.trans h' hfree).get?_eq, hlookup]

theorem Changed.congr_opened {files : List (List String × ByteArray)}
    {opened opened' : List (List String)} (h : f.Changed files opened f')
    (hopened : ∀ q, q ∈ opened ↔ q ∈ opened') : f.Changed files opened' f' where
  current_eq := h.current_eq
  get?_eq q := by
    rw [h.get?_eq]
    simp only [hopened]

theorem Changed.cons {opened : List (List String)} (h : f.Changed [] opened f')
    (hplace : f.get? place = some .folder) : f.Changed [] (place :: opened) f' where
  current_eq := h.current_eq
  get?_eq q := by
    rw [h.get?_eq]
    by_cases hq : q = place
    · simp [hq, hplace]
    · simp [hq]

theorem Changed.of_cons {files : List (List String × ByteArray)} {opened : List (List String)}
    (h : f.Changed files (place :: opened) f') (hplace : place ∈ opened) :
    f.Changed files opened f' := by
  refine h.congr_opened fun q => ?_
  rw [List.mem_cons, or_iff_right_of_imp]
  rintro rfl
  exact hplace

theorem changed_put_folder (f : Folder) (hplace : place ≠ []) :
    f.Changed [] [place] (f.put place .folder) where
  current_eq := rfl
  get?_eq q := by simp [get?_put hplace]

theorem changed_put_file (f : Folder) (hplace : place ≠ []) (content : ByteArray) :
    f.Changed [(place, content)] [] (f.put place (.file content)) where
  current_eq := rfl
  get?_eq q := by
    rw [get?_put hplace, List.lookup_cons]
    by_cases hq : q = place
    · simp [hq]
    · have hne : (q == place) = false := by simpa using hq
      simp [hq, hne]

theorem Changed.get?_of_ne (h : f.Changed [(place, content)] [] f') (hq : q ≠ place) :
    f'.get? q = f.get? q := by
  have hne : (q == place) = false := by simpa using hq
  rw [h.get?_eq, List.lookup_cons, hne]
  rfl

theorem start_mem_scanl (place : List String) (names : List String) :
    place ∈ names.scanl follow place := by
  cases names with
  | nil => simp
  | cons name names => simp

/-- Going down from an open place opens every place on the way, if none of them is a file. -/
theorem descend_spec (hopen : f.IsOpen place)
    (hfree : ∀ q ∈ names.scanl follow place, ∀ c, f.get? q ≠ some (.file c)) :
    ∃ f', f.descend place names = (.ok (), f') ∧ f.Changed [] (names.scanl follow place) f' := by
  induction names generalizing f place with
  | nil =>
    have hplace := hopen place List.prefix_rfl
    exact ⟨f, rfl, (Changed.refl f).cons hplace⟩
  | cons name names ih =>
    have hplace := hopen place List.prefix_rfl
    rw [List.scanl_cons] at hfree ⊢
    have hrest := fun q hq => hfree q (List.mem_cons_of_mem place hq)
    by_cases hname : name = ".."
    · rw [follow, if_pos hname] at hrest ⊢
      obtain ⟨f', hdescend, hchanged⟩ := ih hopen.dropLast hrest
      exact ⟨f', by rw [descend, if_pos hname, hdescend], hchanged.cons hplace⟩
    · rw [follow, if_neg hname] at hrest ⊢
      have hne : place ++ [name] ≠ [] := by simp
      have hmem := start_mem_scanl (place ++ [name]) names
      cases hnext : f.get? (place ++ [name]) with
      | none =>
        -- a missing folder is created, which puts no file anywhere
        have hput : ∀ q, (f.put (place ++ [name]) .folder).get? q =
            if q = place ++ [name] then some .folder else f.get? q := get?_put hne .folder
        have hopen' : (f.put (place ++ [name]) .folder).IsOpen (place ++ [name]) := by
          refine IsOpen.append (fun q hq => ?_) (by rw [hput, if_pos rfl])
          rw [hput, hopen q hq, ite_self]
        obtain ⟨f', hdescend, hchanged⟩ := ih hopen' fun q hq c => by
          rw [hput]
          split
          · simp
          · exact hrest q hq c
        refine ⟨f', by simp only [descend, if_neg hname, hnext, hdescend], ?_⟩
        have hboth := (f.changed_put_folder hne).trans hchanged fun q _ => rfl
        exact (hboth.of_cons hmem).cons hplace
      | some entry =>
        cases entry with
        | file c => exact absurd hnext (hrest _ hmem c)
        | folder =>
          obtain ⟨f', hdescend, hchanged⟩ := ih (hopen.append hnext) hrest
          refine ⟨f', ?_, hchanged.cons hplace⟩
          simp only [descend, if_neg hname, hnext, hdescend]

theorem makeFolders_spec (hfree : ∀ q ∈ f.way p, ∀ c, f.get? q ≠ some (.file c)) :
    ∃ f', f.makeFolders p = (.ok (), f') ∧ f.Changed [] (f.way p) f' :=
  descend_spec f.isOpen_nil hfree

theorem locate_cons {name : String} (hplace : f.get? place = some .folder) :
    f.locate place (name :: names) = f.locate (follow place name) names := by
  rw [locate, hplace, follow]
  by_cases hname : name = ".."
  · simp only [hname, if_true]
  · simp only [hname, if_false]

/-- The last name of a path leads on from a place, if all places before it are folders. -/
theorem locate_append {last : String}
    (h : ∀ q ∈ names.scanl follow place, f.get? q = some .folder) :
    f.locate place (names ++ [last]) = .ok ((names ++ [last]).foldl follow place) := by
  induction names generalizing place with
  | nil =>
    rw [List.nil_append, locate_cons (h place (by simp))]
    rfl
  | cons name names ih =>
    rw [List.scanl_cons] at h
    rw [List.cons_append, List.foldl_cons, locate_cons (h place List.mem_cons_self)]
    exact ih fun q hq => h q (List.mem_cons_of_mem place hq)

end Folder

namespace Path

theorem parts_join_parent (base : Path) {p : Path} (hp : p.parts ≠ []) :
    ∃ last, (base.join p).parts = (base.join p.parent).parts ++ [last] := by
  obtain ⟨names, last, hparts⟩ := List.eq_nil_or_concat' p.parts |>.resolve_left hp
  refine ⟨last, ?_⟩
  by_cases habs : p.absolute
  · simp [join, parent, habs, hparts]
  · simp [join, parent, habs, hparts]

end Path

namespace Folder

variable {f f' : Folder} {p : Path} {content : ByteArray}
  {files : List (List String × ByteArray)} {opened : List (List String)}

theorem Changed.way_eq (h : f.Changed files opened f') (p : Path) : f'.way p = f.way p := by
  rw [way, way, h.current_eq]

theorem Changed.spot_eq (h : f.Changed files opened f') (p : Path) : f'.spot p = f.spot p := by
  rw [spot, spot, h.current_eq]

def Leads (f : Folder) (p : Path) : Prop := ∀ q ∈ f.way p.parent, f.get? q = some .folder

theorem Leads.place_eq (h : f.Leads p) (hp : p.parts ≠ []) : f.place p = .ok (f.spot p) := by
  obtain ⟨last, hparts⟩ := Path.parts_join_parent f.current hp
  rw [place, spot, hparts]
  exact locate_append h

theorem Leads.write_spec (h : f.Leads p) (hp : p.parts ≠ [])
    (hspot : f.get? (f.spot p) ≠ some .folder) (content : ByteArray) :
    ∃ f', f.write p content = (.ok (), f') ∧ f.Changed [(f.spot p, content)] [] f' := by
  refine ⟨_, ?_, f.changed_put_file (ne_nil_of_not_folder hspot) content⟩
  rw [write, h.place_eq hp]
  cases hget : f.get? (f.spot p) with
  | none => simp only [hget]
  | some entry =>
    cases entry with
    | file c => simp only [hget]
    | folder => exact absurd hget hspot

theorem Leads.read_eq (h : f.Leads p) (hp : p.parts ≠ [])
    (hspot : f.get? (f.spot p) = some (.file content)) : f.read p = .ok content := by
  simp only [read, find, h.place_eq hp, bind, Except.bind, hspot, Option.elim_some]

/-- A file can be put at a path once the folders on the way are created. -/
structure Accepts (f : Folder) (p : Path) : Prop where
  parts_ne_nil : p.parts ≠ []
  way_free : ∀ q ∈ f.way p.parent, ∀ c, f.get? q ≠ some (.file c)
  spot_not_mem : f.spot p ∉ f.way p.parent
  spot_free : f.get? (f.spot p) ≠ some .folder

/-- A file can be put at a path that does not lead back on its way, if there is no entry yet
at the places that it leads along. -/
theorem accepts_of_new (hp : p.parts ≠ []) (hspot : f.spot p ∉ f.way p.parent)
    (hnew : ∀ e ∈ f.entries, e.1 ∉ f.spot p :: f.way p.parent) : f.Accepts p := by
  have hnone : ∀ q ∈ f.spot p :: f.way p.parent, q ≠ [] → f.get? q = none := by
    intro q hq hne
    rw [get?, List.isEmpty_eq_false_iff.2 hne, if_neg (by simp), List.lookup_eq_none_iff]
    intro e he
    have hother : q ≠ e.1 := fun heq => hnew e he (heq ▸ hq)
    simpa using hother
  refine ⟨hp, fun q hq c => ?_, hspot, ?_⟩
  · by_cases hne : q = []
    · simp [hne, get?]
    · simp [hnone q (List.mem_cons_of_mem _ hq) hne]
  · have hne : f.spot p ≠ [] := by
      intro hnil
      rw [hnil] at hspot
      exact hspot (start_mem_scanl [] _)
    simp [hnone _ List.mem_cons_self hne]

theorem Accepts.of_changed (h : f.Accepts p) (hchanged : f.Changed files opened f')
    (hway : ∀ q ∈ f.way p.parent, files.lookup q = none) (hspot : f.spot p ∉ opened) :
    f'.Accepts p where
  parts_ne_nil := h.parts_ne_nil
  way_free q hq c := by
    rw [hchanged.way_eq] at hq
    simp only [hchanged.get?_eq, hway q hq]
    split
    · simp
    · exact h.way_free q hq c
  spot_not_mem := by
    rw [hchanged.way_eq, hchanged.spot_eq]
    exact h.spot_not_mem
  spot_free := by
    rw [hchanged.spot_eq, hchanged.get?_eq]
    cases files.lookup (f.spot p) with
    | some content => simp
    | none =>
      rw [if_neg hspot]
      exact h.spot_free

/-- The folders of a path are created, and the path leads to a place that is no folder. -/
theorem Accepts.makeFolders_spec (h : f.Accepts p) :
    ∃ f', f.makeFolders p.parent = (.ok (), f') ∧ f.Changed [] (f.way p.parent) f' ∧
      f'.Leads p ∧ f'.get? (f'.spot p) ≠ some .folder := by
  obtain ⟨f', hmake, hchanged⟩ := Folder.makeFolders_spec h.way_free
  refine ⟨f', hmake, hchanged, fun q hq => ?_, ?_⟩
  · rw [hchanged.way_eq] at hq
    rw [hchanged.get?_eq]
    exact if_pos hq
  · rw [hchanged.spot_eq, hchanged.get?_eq]
    simpa [h.spot_not_mem] using h.spot_free

/-- Creating the folders of a path and writing puts the file and opens the way, and no more. -/
theorem Accepts.save_spec (h : f.Accepts p) (content : ByteArray) :
    ∃ f' f'', f.makeFolders p.parent = (.ok (), f') ∧ f'.write p content = (.ok (), f'') ∧
      f.Changed [(f.spot p, content)] (f.way p.parent) f'' := by
  obtain ⟨f', hmake, hchanged, hleads, hspot⟩ := h.makeFolders_spec
  obtain ⟨f'', hwrite, hput⟩ := hleads.write_spec h.parts_ne_nil hspot content
  refine ⟨f', f'', hmake, hwrite, ?_⟩
  rw [hchanged.spot_eq] at hput
  simpa using hchanged.trans hput (by simp)

/-- A file that was put at a path is read there. -/
theorem Accepts.read_of_changed (h : f.Accepts p)
    (hchanged : f.Changed [(f.spot p, content)] (f.way p.parent) f') : f'.read p = .ok content := by
  have hleads : f'.Leads p := by
    intro q hq
    rw [hchanged.way_eq] at hq
    have hne : (q == f.spot p) = false := by
      rw [beq_eq_false_iff_ne]
      rintro rfl
      exact h.spot_not_mem hq
    simp [hchanged.get?_eq, List.lookup_cons, hne, hq]
  refine hleads.read_eq h.parts_ne_nil ?_
  rw [hchanged.spot_eq, hchanged.get?_eq]
  simp

theorem locate_cons_eq_ok {name : String} {place q : List String} {names : List String}
    (h : f.locate place (name :: names) = .ok q) :
    f.get? place = some .folder ∧ f.locate (follow place name) names = .ok q := by
  cases hplace : f.get? place with
  | none => simp [locate, hplace] at h
  | some entry =>
    cases entry with
    | file c => simp [locate, hplace] at h
    | folder => exact ⟨rfl, by rwa [locate_cons hplace] at h⟩

/-- A file that is put where no folder stands leaves every way as it is. -/
theorem locate_put {place start q : List String} {names : List String}
    (hplace : f.get? place ≠ some .folder) (h : f.locate start names = .ok q) :
    (f.put place (.file content)).locate start names = .ok q := by
  induction names generalizing start with
  | nil => exact h
  | cons name names ih =>
    obtain ⟨hstart, hrest⟩ := locate_cons_eq_ok h
    have hother : start ≠ place := by
      rintro rfl
      exact hplace hstart
    have hput : (f.put place (.file content)).get? start = some .folder := by
      rw [get?_put (ne_nil_of_not_folder hplace), if_neg hother, hstart]
    rw [locate_cons hput]
    exact ih hrest

theorem read_eq_ok_iff : f.read p = .ok content ↔
    ∃ place, f.place p = .ok place ∧ f.get? place = some (.file content) := by
  unfold read find
  cases f.place p with
  | error fault => simp [bind, Except.bind]
  | ok place =>
    cases hget : f.get? place with
    | none => simp [bind, Except.bind, hget]
    | some entry => cases entry <;> simp [bind, Except.bind, hget]

theorem write_eq_ok_iff : f.write p content = (.ok (), f') ↔
    ∃ place, f.place p = .ok place ∧ f.get? place ≠ some .folder ∧
      f.put place (.file content) = f' := by
  unfold write
  cases f.place p with
  | error fault => simp
  | ok place =>
    cases hget : f.get? place with
    | none => simp [hget]
    | some entry => cases entry <;> simp [hget]

theorem read_of_write (h : f.write p content = (.ok (), f')) : f'.read p = .ok content := by
  obtain ⟨place, hplace, hfree, rfl⟩ := write_eq_ok_iff.1 h
  refine read_eq_ok_iff.2 ⟨place, locate_put hfree hplace, ?_⟩
  rw [get?_put (ne_nil_of_not_folder hfree), if_pos rfl]

theorem ways_of_locate {place q : List String} {names : List String} {last : String}
    (h : f.locate place (names ++ [last]) = .ok q) :
    (∀ w ∈ names.scanl follow place, f.get? w = some .folder) ∧
      q = (names ++ [last]).foldl follow place := by
  induction names generalizing place with
  | nil =>
    obtain ⟨hplace, hlast⟩ := locate_cons_eq_ok h
    exact ⟨by simpa using hplace, (Except.ok.inj hlast).symm⟩
  | cons name names ih =>
    obtain ⟨hplace, hrest⟩ := locate_cons_eq_ok h
    obtain ⟨hway, hq⟩ := ih hrest
    rw [List.scanl_cons]
    exact ⟨List.forall_mem_cons.2 ⟨hplace, hway⟩, hq⟩

theorem accepts_of_read {previous : ByteArray} (hp : p.parts ≠ [])
    (h : f.read p = .ok previous) : f.Accepts p := by
  obtain ⟨q, hplace, hfile⟩ := read_eq_ok_iff.1 h
  obtain ⟨last, hparts⟩ := Path.parts_join_parent f.current hp
  have hspot : q = f.spot p ∧ ∀ w ∈ f.way p.parent, f.get? w = some .folder := by
    rw [place, hparts] at hplace
    rw [spot, hparts]
    exact (ways_of_locate hplace).symm
  obtain ⟨rfl, hway⟩ := hspot
  refine ⟨hp, fun w hw c => ?_, fun hmem => ?_, ?_⟩
  · simp [hway w hw]
  · rw [hway _ hmem] at hfile
    cases hfile
  · simp [hfile]

end Folder

end TwoPhase
