import Tlsdate.ByteStream

namespace Tlsdate.Dialogue

open ByteStream

/-- A party that talks over a transport. It may not return (the outer none) or
give up (the inner one), which leaves the transport where it was then. -/
abbrev Talk (τ α : Type) := OptionT (StateT τ Option) α

variable {τ α β : Type} (T : Transport τ)

def tell (line : List UInt8) : Talk τ Unit := fun t =>
  some (if (T.send t line).1 = some line.length then some () else none, (T.send t line).2)

def hear (n : Nat) : Talk τ (List UInt8) := fun t =>
  some ((T.recv t n).1.filter fun buf => buf.length == n, (T.recv t n).2)

def Told (line : List UInt8) (t : τ) (_ : Unit) (s : τ) : Prop :=
  T.send t line = (some line.length, s)

def Heard (n : Nat) (t : τ) (buf : List UInt8) (s : τ) : Prop :=
  T.recv t n = (some buf, s) ∧ buf.length = n

/-- When the party returns, it has come through exactly if the dialogue took
the course `R`, to that result and that state of the transport. -/
def Decides (m : Talk τ α) (R : τ → α → τ → Prop) : Prop :=
  ∀ t x s, m t = some (x, s) → ∀ a u, R t a u ↔ x = some a ∧ u = s

theorem bind_eq_some {m : Talk τ α} {f : α → Talk τ β} {t s : τ} {x : Option β} :
    (m >>= f) t = some (x, s) ↔
      (m t = some (none, s) ∧ x = none) ∨ ∃ a u, m t = some (some a, u) ∧ f a u = some (x, s) := by
  change ((m t).bind fun r => _) = _ ↔ _
  rcases hm : m t with _ | ⟨_ | a, u⟩
  · simp
  · constructor
    · intro h
      obtain ⟨rfl, rfl⟩ := Prod.mk.inj (Option.some.inj h)
      exact Or.inl ⟨rfl, rfl⟩
    · rintro (⟨h, rfl⟩ | ⟨a, v, h, -⟩)
      · obtain ⟨-, rfl⟩ := Prod.mk.inj (Option.some.inj h)
        rfl
      · simp at h
  · constructor
    · intro h
      exact Or.inr ⟨a, u, rfl, h⟩
    · rintro (⟨h, -⟩ | ⟨b, v, h, hf⟩)
      · simp at h
      · simp only [Option.some.injEq, Prod.mk.injEq] at h
        obtain ⟨rfl, rfl⟩ := h
        exact hf

theorem bind_step {m : Talk τ α} {f : α → Talk τ β} {t u s : τ} {a : α} {x : Option β}
    (hm : m t = some (some a, u)) (hf : f a u = some (x, s)) : (m >>= f) t = some (x, s) :=
  bind_eq_some.mpr (Or.inr ⟨a, u, hm, hf⟩)

theorem Decides.bind {m : Talk τ α} {R : τ → α → τ → Prop} {f : α → Talk τ β}
    {S : α → τ → β → τ → Prop} (hm : Decides m R) (hf : ∀ a, Decides (f a) (S a)) :
    Decides (m >>= f) fun t b s => ∃ a u, R t a u ∧ S a u b s := by
  intro t x s h b v
  rcases bind_eq_some.mp h with ⟨hn, rfl⟩ | ⟨a, u, ha, hfa⟩
  · simp [hm t none s hn]
  · constructor
    · rintro ⟨a', u', hR, hS⟩
      obtain ⟨ha', rfl⟩ := (hm t _ u ha a' u').mp hR
      obtain rfl := Option.some.inj ha'
      exact (hf a u' x s hfa b v).mp hS
    · intro hx
      exact ⟨a, u, (hm t _ u ha a u).mpr ⟨rfl, rfl⟩, (hf a u x s hfa b v).mpr hx⟩

theorem Decides.mono {m : Talk τ α} {R S : τ → α → τ → Prop} (hm : Decides m R)
    (h : ∀ t a s, R t a s ↔ S t a s) : Decides m S := by
  intro t x s hx a u
  rw [← h, hm t x s hx]

theorem decides_pure (a : α) : Decides (pure a : Talk τ α) fun t b s => b = a ∧ s = t := by
  intro t x s h b u
  obtain ⟨rfl, rfl⟩ := Prod.mk.inj (Option.some.inj h)
  simp [eq_comm]

theorem decides_guard (p : Prop) [Decidable p] :
    Decides (guard p : Talk τ Unit) fun t _ s => p ∧ s = t := by
  by_cases hp : p
  · rw [guard, if_pos hp]
    refine (decides_pure ()).mono ?_
    simp [hp]
  · rw [guard, if_neg hp]
    intro t x s h a u
    obtain ⟨rfl, rfl⟩ := Prod.mk.inj (Option.some.inj h)
    simp [hp]

theorem decides_tell (line : List UInt8) : Decides (tell T line) (Told T line) := by
  intro t x s h a u
  obtain ⟨rfl, rfl⟩ := Prod.mk.inj (Option.some.inj h)
  rw [Told]
  rcases hs : T.send t line with ⟨n, v⟩
  by_cases hn : n = some line.length <;> simp [hn, eq_comm]

theorem decides_hear (n : Nat) : Decides (hear T n) (Heard T n) := by
  intro t x s h a u
  obtain ⟨rfl, rfl⟩ := Prod.mk.inj (Option.some.inj h)
  rw [Heard]
  rcases hs : T.recv t n with ⟨buf, v⟩
  constructor
  · rintro ⟨he, hl⟩
    obtain ⟨rfl, rfl⟩ := Prod.mk.inj he
    simp [hl]
  · rintro ⟨hb, rfl⟩
    obtain ⟨rfl, hl⟩ := Option.filter_eq_some_iff.mp hb
    exact ⟨rfl, by simpa using hl⟩

variable {T} {t s : τ}

theorem guard_true {p : Prop} [Decidable p] (hp : p) (t : τ) :
    (guard p : Talk τ Unit) t = some (some (), t) := by
  rw [guard, if_pos hp]
  rfl

theorem tell_told {line : List UInt8} (h : Told T line t () s) : tell T line t = some (some (), s) := by
  rw [Told] at h
  simp [tell, h]

theorem hear_heard {n : Nat} {buf : List UInt8} (h : Heard T n t buf s) :
    hear T n t = some (some buf, s) := by
  obtain ⟨hr, hlen⟩ := h
  simp [hear, hr, hlen]

end Tlsdate.Dialogue
