import TrueAsync.Lib.Heap

/-!
# Total correctness of fallible computations

`Returns m Q` says that the computation `m` does not fault and that its result satisfies
`Q`. A run-time fault (a read of released memory, a loop that ran out of fuel) is an error
of `m`, so a `Returns` fact is at once the safety and the functional statement.
-/

namespace TrueAsync.Lib

variable {ε α β : Type}

@[simp] theorem ok_bind (a : α) (f : α → Except ε β) : (Except.ok a >>= f) = f a := rfl

@[simp] theorem error_bind (e : ε) : ((Except.error e : Except ε α) >>= f) = .error e := rfl

/-- `m` finishes without a fault, with a result in `Q`. -/
def Returns (m : Except ε α) (Q : α → Prop) : Prop := ∃ a, m = .ok a ∧ Q a

namespace Returns

variable {Q : α → Prop} {a : α}

theorem pure (h : Q a) : Returns (Pure.pure a : Except ε α) Q := ⟨a, rfl, h⟩

theorem ok (h : Q a) : Returns (.ok a : Except ε α) Q := ⟨a, rfl, h⟩

variable {m : Except ε α} {P : α → Prop} {f : α → Except ε β}

theorem bind {Q : β → Prop}
    (hm : Returns m P) (hf : ∀ a, P a → Returns (f a) Q) : Returns (m >>= f) Q := by
  obtain ⟨a, rfl, ha⟩ := hm
  exact hf a ha

theorem mono (hm : Returns m P) (h : ∀ a, P a → Q a) : Returns m Q := by
  obtain ⟨a, hok, ha⟩ := hm
  exact ⟨a, hok, h a ha⟩

theorem of_eq (h : Returns m Q) (hok : m = .ok a) : Q a := by
  obtain ⟨b, hok', hb⟩ := h
  obtain rfl : a = b := Except.ok.inj (hok.symm.trans hok')
  exact hb

/-- A loop with an invariant about the part of the list in front of it. -/
theorem foldlM_rest {γ : Type} {step : α → γ → Except ε α} {I : List γ → α → Prop}
    (hstep : ∀ {a x rest}, I (x :: rest) a → Returns (step a x) (I rest)) :
    ∀ {l a}, I l a → Returns (l.foldlM step a) (I [])
  | [], _, ha => .pure ha
  | _ :: _, _, ha => (hstep ha).bind fun _ => foldlM_rest hstep

theorem foldlM {γ : Type} {step : α → γ → Except ε α} {I : α → Prop} (l : List γ)
    (hstep : ∀ a x, x ∈ l → I a → Returns (step a x) I) (a : α) (ha : I a) :
    Returns (l.foldlM step a) I := by
  refine mono (foldlM_rest (I := fun rest a => rest ⊆ l ∧ I a) ?_ ⟨List.Subset.refl l, ha⟩)
    fun _ both => both.2
  rintro b x rest ⟨sub, hb⟩
  obtain ⟨here, later⟩ := List.cons_subset.mp sub
  exact (hstep b x here hb).mono fun _ hc => ⟨later, hc⟩

end Returns

/-- If `m` finishes without a fault, its result is in `Q`. -/
def Ensures (m : Except ε α) (Q : α → Prop) : Prop := ∀ a, m = .ok a → Q a

namespace Ensures

theorem pure {Q : α → Prop} (h : Q a) : Ensures (Pure.pure a : Except ε α) Q := by
  intro b done
  cases done
  exact h

theorem bind {Q : β → Prop}
    (hm : Ensures m P) (hf : ∀ a, P a → Ensures (f a) Q) : Ensures (m >>= f) Q := by
  intro b done
  cases first : m with
  | error fault =>
    rw [first] at done
    cases done
  | ok a =>
    rw [first] at done
    exact hf a (hm a first) b done

theorem mono {P Q : α → Prop} (hm : Ensures m P) (h : ∀ a, P a → Q a) : Ensures m Q :=
  fun a done => h a (hm a done)

theorem foldlM_rest {γ : Type} {step : α → γ → Except ε α} {I : List γ → α → Prop}
    (hstep : ∀ {a x rest}, I (x :: rest) a → Ensures (step a x) (I rest)) :
    ∀ {l a}, I l a → Ensures (l.foldlM step a) (I [])
  | [], _, ha => .pure ha
  | _ :: _, _, ha => (hstep ha).bind fun _ => foldlM_rest hstep

theorem foldlM {γ : Type} {step : α → γ → Except ε α} {I : α → Prop} (l : List γ)
    (hstep : ∀ a x, x ∈ l → I a → Ensures (step a x) I) (a : α) (ha : I a) :
    Ensures (l.foldlM step a) I := by
  refine mono (foldlM_rest (I := fun rest a => rest ⊆ l ∧ I a) ?_ ⟨List.Subset.refl l, ha⟩)
    fun _ both => both.2
  rintro b x rest ⟨sub, hb⟩
  obtain ⟨here, later⟩ := List.cons_subset.mp sub
  exact (hstep b x here hb).mono fun _ hc => ⟨later, hc⟩

end Ensures

theorem Ensures.and {P Q : α → Prop} (hp : Ensures m P) (hq : Ensures m Q) :
    Ensures m (fun a => P a ∧ Q a) :=
  fun a done => ⟨hp a done, hq a done⟩

theorem Returns.ensures {Q : α → Prop} (h : Returns m Q) : Ensures m Q := fun _ done => h.of_eq done

theorem Returns.and_ensures {P Q : α → Prop} (hp : Returns m P)
    (hq : Ensures m Q) : Returns m (fun a => P a ∧ Q a) := by
  obtain ⟨a, done, ha⟩ := hp
  exact ⟨a, done, ha, hq a done⟩

/-- `m` fails only with an allowed error, and a result is in `Q`. -/
def FailsOnly (allowed : ε → Prop) (m : Except ε α) (Q : α → Prop) : Prop :=
  (∀ e, m = .error e → allowed e) ∧ Ensures m Q

namespace FailsOnly

variable {allowed : ε → Prop} {Q : α → Prop}

theorem pure (h : Q a) : FailsOnly allowed (Pure.pure a : Except ε α) Q := ⟨nofun, .pure h⟩

theorem error {e : ε} (h : allowed e) : FailsOnly allowed (.error e : Except ε α) Q := by
  refine ⟨?_, nofun⟩
  rintro _ ⟨⟩
  exact h

theorem bind {Q : β → Prop}
    (hm : FailsOnly allowed m P) (hf : ∀ a, P a → FailsOnly allowed (f a) Q) :
    FailsOnly allowed (m >>= f) Q := by
  cases first : m with
  | error e => exact error (hm.1 e first)
  | ok a => exact hf a (hm.2 a first)

theorem mono {P : α → Prop} (hm : FailsOnly allowed m P)
    (h : ∀ a, P a → Q a) : FailsOnly allowed m Q :=
  ⟨hm.1, hm.2.mono h⟩

end FailsOnly

theorem Ensures.read (h : Heap α) (fault : ε) (a : Nat) :
    Ensures (h.read fault a) fun x => h.cell a = some x := by
  intro x done
  unfold Heap.read at done
  split at done
  · next found =>
    cases done
    exact found
  · cases done

end TrueAsync.Lib
