import TwoPhase.Config

/-!
Programs that only read. What such a program returns is a function of the folder it starts in, and
of two programs one after the other the second sees the same folder as the first. Loading a
configuration is one, also where it fails.
-/
namespace TwoPhase

namespace Folder

variable {ε β γ : Type}

def ReadsOnly (x : ExceptT ε (StateM Folder) β) : Prop := ∀ f, (x.run f).2 = f

def look (f : Folder) (x : ExceptT ε (StateM Folder) β) : Except ε β := (x.run f).1

theorem ReadsOnly.run_eq {x : ExceptT ε (StateM Folder) β} (hx : ReadsOnly x) (f : Folder) :
    x.run f = (f.look x, f) :=
  Prod.ext rfl (hx f)

theorem readsOnly_pure (b : β) : ReadsOnly (pure b : ExceptT ε (StateM Folder) β) := fun _ => rfl

theorem readsOnly_throw (e : ε) : ReadsOnly (throw e : ExceptT ε (StateM Folder) β) := fun _ => rfl

theorem run_bind {x : ExceptT ε (StateM Folder) β} (hx : ReadsOnly x)
    (k : β → ExceptT ε (StateM Folder) γ) (f : Folder) :
    (x >>= k).run f = match f.look x with
      | .ok b => (k b).run f
      | .error e => (.error e, f) := by
  have hrun := hx.run_eq f
  simp only [bind, ExceptT.bind, ExceptT.mk, ExceptT.run, StateT.bind] at hrun ⊢
  rw [hrun]
  cases f.look x with
  | ok b => rfl
  | error e => rfl

theorem readsOnly_bind {x : ExceptT ε (StateM Folder) β} {k : β → ExceptT ε (StateM Folder) γ}
    (hx : ReadsOnly x) (hk : ∀ b, ReadsOnly (k b)) : ReadsOnly (x >>= k) := by
  intro f
  rw [run_bind hx]
  cases f.look x with
  | ok b => exact hk b f
  | error e => rfl

theorem look_bind {x : ExceptT ε (StateM Folder) β} (hx : ReadsOnly x)
    (k : β → ExceptT ε (StateM Folder) γ) (f : Folder) :
    f.look (x >>= k) = f.look x >>= fun b => f.look (k b) := by
  rw [look, run_bind hx]
  cases f.look x with
  | ok b => rfl
  | error e => rfl

theorem look_bind_of_ok {x : ExceptT ε (StateM Folder) β} {b : β} (hx : ReadsOnly x) {f : Folder}
    (h : f.look x = .ok b) (k : β → ExceptT ε (StateM Folder) γ) :
    f.look (x >>= k) = f.look (k b) := by
  rw [look_bind hx, h]
  rfl

end Folder

namespace Config

open Folder

variable {β : Type} {f : Folder} (readers : Readers)

theorem readsOnly_lift (r : Except ConfigFault β) :
    ReadsOnly (lift r : ExceptT ConfigFault (StateM Folder) β) := fun _ => rfl

theorem look_lift_bind {γ : Type} {r : Except ConfigFault β} {b : β} (h : r = .ok b)
    (k : β → ExceptT ConfigFault (StateM Folder) γ) : f.look (lift r >>= k) = f.look (k b) :=
  look_bind_of_ok (readsOnly_lift r) h k

theorem readsOnly_bytes (p : Path) :
    ReadsOnly (bytes p : ExceptT ConfigFault (StateM Folder) ByteArray) := by
  unfold bytes
  refine readsOnly_bind (fun _ => rfl) fun r => ?_
  cases r with
  | ok content => exact readsOnly_pure content
  | error fault => exact readsOnly_throw _

theorem look_bytes {p : Path} {content : ByteArray} (h : f.read p = .ok content) :
    f.look (bytes p : ExceptT ConfigFault (StateM Folder) ByteArray) = .ok content := by
  have hread : f.look (liftM (FileAccess.read p : StateM Folder _) :
      ExceptT ConfigFault (StateM Folder) _) = .ok (.ok content) := congrArg Except.ok h
  unfold bytes
  rw [look_bind_of_ok (fun _ => rfl) hread]
  rfl

theorem readsOnly_text (p : Path) :
    ReadsOnly (text p : ExceptT ConfigFault (StateM Folder) String) := by
  unfold text
  refine readsOnly_bind (readsOnly_bytes p) fun content => ?_
  split
  · exact readsOnly_pure _
  · exact readsOnly_throw _

theorem look_text {p : Path} {content : ByteArray} {s : String} (h : f.read p = .ok content)
    (hs : String.fromUTF8? content = some s) :
    f.look (text p : ExceptT ConfigFault (StateM Folder) String) = .ok s := by
  unfold text
  rw [look_bind_of_ok (readsOnly_bytes p) (look_bytes h)]
  simp only [hs]
  rfl

theorem readsOnly_expanded (p : Path) :
    ReadsOnly (expanded p : ExceptT ConfigFault (StateM Folder) Path) := by
  unfold expanded
  split
  case h_1 part rest _ _ =>
    split
    case h_1 user _ =>
      refine readsOnly_bind (fun _ => rfl) fun home => ?_
      cases home with
      | some home => exact readsOnly_pure _
      | none => exact readsOnly_throw _
    case h_2 => exact readsOnly_pure _
  case h_2 => exact readsOnly_pure _

theorem readsOnly_arrayOfFile (p : Path) :
    ReadsOnly (arrayOfFile readers p : ExceptT ConfigFault (StateM Folder) (Tensor Float)) := by
  unfold arrayOfFile
  refine readsOnly_bind (fun _ => rfl) fun present => ?_
  split
  · exact readsOnly_throw _
  split
  · exact readsOnly_bind (readsOnly_bytes p) fun content => readsOnly_lift _
  split
  · exact readsOnly_bind (readsOnly_bytes p) fun content => readsOnly_lift _
  · exact readsOnly_throw _

theorem readsOnly_array? (base : Path) (v : Value) (key : String) :
    ReadsOnly (array? readers base v key : ExceptT ConfigFault (StateM Folder) _) := by
  unfold array?
  refine readsOnly_bind (readsOnly_lift _) fun name => ?_
  cases name with
  | some name => exact readsOnly_bind (readsOnly_arrayOfFile readers _) fun t => readsOnly_pure _
  | none =>
    refine readsOnly_bind (readsOnly_lift _) fun value => ?_
    cases value with
    | some value => exact readsOnly_bind (readsOnly_lift _) fun t => readsOnly_pure _
    | none => exact readsOnly_pure _

theorem readsOnly_readProblem (base : Path) (v : Value) :
    ReadsOnly (readProblem readers base v : ExceptT ConfigFault (StateM Folder) _) := by
  unfold readProblem
  refine readsOnly_bind (readsOnly_array? readers base v "c") fun c => ?_
  cases c with
  | none => exact readsOnly_throw _
  | some c =>
    refine readsOnly_bind (readsOnly_array? readers base v "A") fun a => ?_
    refine readsOnly_bind (readsOnly_array? readers base v "A_eq") fun a' => ?_
    refine readsOnly_bind (readsOnly_array? readers base v "b") fun b => ?_
    refine readsOnly_bind (readsOnly_array? readers base v "b_eq") fun b' => ?_
    exact readsOnly_bind (readsOnly_lift _) fun constant => readsOnly_lift _

theorem readsOnly_ofValue (base : Path) (v : Value) :
    ReadsOnly (ofValue readers base v : ExceptT ConfigFault (StateM Folder) Config) := by
  unfold ofValue
  refine readsOnly_bind (readsOnly_lift _) fun problemSection => ?_
  refine readsOnly_bind (readsOnly_lift _) fun optionSection => ?_
  refine readsOnly_bind (readsOnly_lift _) fun outputSection => ?_
  refine readsOnly_bind (readsOnly_lift _) fun options => ?_
  refine readsOnly_bind (readsOnly_lift _) fun output => ?_
  refine readsOnly_bind (readsOnly_readProblem readers base _) fun problem => ?_
  exact readsOnly_bind (readsOnly_lift _) fun check => readsOnly_pure _

theorem readsOnly_load (p : Path) :
    ReadsOnly (load readers p : ExceptT ConfigFault (StateM Folder) Config) := by
  unfold load
  refine readsOnly_bind (readsOnly_expanded p) fun path => ?_
  refine readsOnly_bind (fun _ => rfl) fun current => ?_
  refine readsOnly_bind (readsOnly_text _) fun source => ?_
  exact readsOnly_bind (readsOnly_lift _) fun v => readsOnly_ofValue readers _ _

end Config

end TwoPhase
