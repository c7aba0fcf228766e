import Mathlib.Data.List.Forall2

/-!
Computations and loops, and where they fail. A bind is opened once; a loop whose steps all return is
the loop over the values they return.
-/
namespace TwoPhase

theorem bind_eq_ok {ε β γ : Type} {x : Except ε β} {f : β → Except ε γ} {c : γ} :
    x >>= f = .ok c ↔ ∃ b, x = .ok b ∧ f b = .ok c := by
  cases x with
  | error e => simp [bind, Except.bind]
  | ok b => simp [bind, Except.bind]

/-- A bind fails in its first part, or in the second once the first returns. -/
theorem bind_fails_iff {ε β γ : Type} {x : Except ε β} {f : β → Except ε γ} :
    (∃ e, x >>= f = .error e) ↔
      (∃ e, x = .error e) ∨ ∃ b, x = .ok b ∧ ∃ e, f b = .error e := by
  cases x with
  | error e => simp [bind, Except.bind]
  | ok b => simp [bind, Except.bind]

/-- Of two parts that do not depend on each other, either may fail. -/
theorem bind_both_fails_iff {ε β γ δ : Type} {x : Except ε β} {y : Except ε γ} {f : β → γ → δ} :
    (∃ e, (do let b ← x; let c ← y; return f b c) = .error e) ↔
      (∃ e, x = .error e) ∨ ∃ e, y = .error e := by
  cases x with
  | error e => simp [bind, Except.bind]
  | ok b => cases y <;> simp [bind, Except.bind, pure, Except.pure]

theorem map_eq_ok {ε β γ : Type} {x : Except ε β} {f : β → γ} {c : γ} (h : x.map f = .ok c) :
    ∃ b, x = .ok b ∧ f b = c := by
  cases x with
  | error e => simp [Except.map] at h
  | ok b => exact ⟨b, rfl, by simpa [Except.map] using h⟩

theorem exists_bind_eq_ok {ε β γ : Type} {x : Except ε β} {f : β → Except ε γ}
    (hx : ∃ b, x = .ok b) (hf : ∀ b, x = .ok b → ∃ c, f b = .ok c) : ∃ c, x >>= f = .ok c := by
  obtain ⟨b, hb⟩ := hx
  obtain ⟨c, hc⟩ := hf b hb
  exact ⟨c, bind_eq_ok.2 ⟨b, hb, hc⟩⟩

section Loops

variable {m : Type → Type} [Monad m] [LawfulMonad m] {β γ : Type}

theorem mapM_eq_pure {f : β → m γ} {g : β → γ} {l : List β} (h : ∀ b ∈ l, f b = pure (g b)) :
    l.mapM f = pure (l.map g) := by
  induction l with
  | nil => rfl
  | cons b l ih =>
    rw [List.mapM_cons, h b List.mem_cons_self, ih fun c hc => h c (List.mem_cons_of_mem b hc)]
    simp

theorem mapM_eq_pure_of_forall₂ {f : β → m γ} {l : List β} {cs : List γ}
    (h : List.Forall₂ (fun b c => f b = pure c) l cs) : l.mapM f = pure cs := by
  induction h with
  | nil => rfl
  | @cons b c l cs hb _ ih => simp [List.mapM_cons, hb, ih]

end Loops

theorem mapM_eq_ok {ε β γ : Type} {f : β → Except ε γ} {g : β → γ} {l : List β}
    (h : ∀ b ∈ l, f b = .ok (g b)) : l.mapM f = .ok (l.map g) :=
  mapM_eq_pure h

theorem exists_mapM_eq_ok {ε β γ : Type} {f : β → Except ε γ} {l : List β}
    (h : ∀ b ∈ l, ∃ c, f b = .ok c) : ∃ cs, l.mapM f = .ok cs := by
  induction l with
  | nil => exact ⟨[], rfl⟩
  | cons b l ih =>
    obtain ⟨c, hc⟩ := h b List.mem_cons_self
    obtain ⟨cs, hcs⟩ := ih fun b hb => h b (List.mem_cons_of_mem _ hb)
    refine ⟨c :: cs, ?_⟩
    rw [List.mapM_cons, hc, hcs]
    rfl

theorem mapM_eq_ok_iff {ε β γ : Type} {f : β → Except ε γ} {l : List β} {cs : List γ} :
    l.mapM f = .ok cs ↔ cs.length = l.length ∧
      ∀ i, ∀ hi : i < l.length, ∀ hi' : i < cs.length, f l[i] = .ok cs[i] := by
  constructor
  · intro h
    induction l generalizing cs with
    | nil =>
      obtain rfl : [] = cs := Except.ok.inj h
      exact ⟨rfl, fun i hi => absurd hi (Nat.not_lt_zero i)⟩
    | cons b l ih =>
      rw [List.mapM_cons] at h
      obtain ⟨c, hc, h⟩ := bind_eq_ok.1 h
      obtain ⟨rest, hrest, h⟩ := bind_eq_ok.1 h
      obtain rfl : c :: rest = cs := Except.ok.inj h
      obtain ⟨hlength, hcells⟩ := ih hrest
      refine ⟨congrArg (· + 1) hlength, fun i hi hi' => ?_⟩
      cases i with
      | zero => exact hc
      | succ i => exact hcells i (Nat.lt_of_succ_lt_succ hi) (Nat.lt_of_succ_lt_succ hi')
  · rintro ⟨hlength, hcells⟩
    refine mapM_eq_pure_of_forall₂ (List.forall₂_iff_get.2 ⟨hlength.symm, fun i hi hi' => ?_⟩)
    exact hcells i hi hi'

/-- A loop returns only if each of its steps does. -/
theorem exists_of_mapM_eq_ok {ε β γ : Type} {f : β → Except ε γ} {l : List β} {cs : List γ}
    (h : l.mapM f = .ok cs) {b : β} (hb : b ∈ l) : ∃ c, f b = .ok c := by
  obtain ⟨hlength, hcells⟩ := mapM_eq_ok_iff.1 h
  obtain ⟨i, hi, rfl⟩ := List.getElem_of_mem hb
  exact ⟨_, hcells i hi (hlength ▸ hi)⟩

theorem exists_forall₂ {β γ : Type} {r : γ → β → Prop} {l : List β} (h : ∀ b ∈ l, ∃ c, r c b) :
    ∃ cs, List.Forall₂ r cs l := by
  induction l with
  | nil => exact ⟨[], .nil⟩
  | cons b l ih =>
    obtain ⟨c, hc⟩ := h b List.mem_cons_self
    obtain ⟨cs, hcs⟩ := ih fun b hb => h b (List.mem_cons_of_mem _ hb)
    exact ⟨c :: cs, .cons hc hcs⟩

end TwoPhase
