import Tlsdate.TimeLedger

namespace Tlsdate.NetworkDelivery

open HostBytes TimeSource Options TimestampFile DaemonState Kickoff Attempts Saving EventLoop TimeLedger

/-- No step writes before E_SAVE has run, and what it then writes is `t`. -/
def Delivers (build : Build) (C : Daemon → Event → Prop) (t : Int) (d₁ : Daemon) : Prop :=
  ∀ es d out, Machine.Run (EventLoop.step build) C d₁ es d out → messages out = [] →
    scheduled d.state .save = true ∧ ∀ e d' o, C d e → EventLoop.step build d e = some (d', o) →
      ∀ m ms, messages o = m :: ms → m = t

def Accepted (build : Build) (d₀ : Daemon) (t : Int) (d₁ : Daemon) : Prop :=
  ∃ es d out serverTime o, Machine.Run (EventLoop.step build) Machine.Free d₀ es d out ∧
    (BitVec.toNat serverTime : Int) = t ∧ isSaneTime build t = true ∧
    EventLoop.step build d (.tlsdateStatus (.word serverTime)) = some (d₁, o)

/-- What the time on its way to the pipe survives: no jump of the clock is
found, no invalidation and no refusal by the setter is handled, no SetTime is
granted, SIGTERM reads the same time, and the write does not block. -/
def Undisturbed (t : Int) (l : Ledger) : Entry → Prop
  | .jump r => jumped r l = false
  | .invalidate _ | .badTime _ => False
  | .setTime _ r => granted r l = false
  | .sigterm now => ∀ sec, now = some sec → sec = t
  | .save readable write _ => readable = false ∧ write = .written
  | _ => True

structure Holding (t : Int) (l : Ledger) : Prop where
  net : l.lastSyncType = .net
  time : l.lastTime = t
  status : armed l.status = false
  save : armed l.save = true

theorem settled_of_not_granted {r : Readings} {l : Ledger} (h : granted r l = false) :
    settled r l = l := by
  simp only [granted, settled] at h ⊢
  split
  next hj => simp [hj, invalidated] at h
  next => rfl

/-- Until it writes, a step keeps the accepted time; when it writes, it writes
that time. A second time cannot be accepted meanwhile, since no attempt is made
while the time is from the network. -/
theorem Holding.step {t : Int} {l l' : Ledger} {e : Entry} {out : List Int} (h : Holding t l)
    (hc : Undisturbed t l e) (hs : TimeLedger.step l e = some (l', out)) :
    (out = [] ∧ Holding t l') ∨ ∃ ms, out = t :: ms := by
  have hnet : ¬ (l.lastSyncType ≠ .net ∨ armed l.status = true) := by simp [h.net, h.status]
  cases e with
  | idle =>
      cases hs
      exact Or.inl ⟨rfl, h⟩
  | jump r =>
      cases hs
      exact Or.inl ⟨rfl, (settled_steady hc).symm ▸ h⟩
  | invalidate r | badTime r => exact absurd hc id
  | listen => simp only [TimeLedger.step, if_neg hnet, reduceCtorEq] at hs
  | hangUp | accept t' => simp [TimeLedger.step, h.status] at hs
  | sigterm now =>
      cases now with
      | none =>
          cases hs
          exact Or.inl ⟨rfl, h.net, h.time, h.status, h.save⟩
      | some sec =>
          cases hs
          obtain rfl : sec = t := hc sec rfl
          refine Or.inl ⟨rfl, h.net, rfl, h.status, armed_arm ?_⟩
          have hsave := h.save
          cases hp : l.save with
          | none => simp [hp, armed] at hsave
          | some p => rfl
  | save readable write shutdown =>
      obtain ⟨rfl, rfl⟩ := hc
      have hcode : ∀ p, encoded { l with save := p } = t := fun p => by
        simp [encoded, h.net, h.time]
      simp only [TimeLedger.step, h.save, if_true, saved, Bool.false_eq_true, ne_eq, not_true_eq_false,
        or_self, if_false, hcode] at hs
      split at hs <;> cases hs <;> exact Or.inr ⟨_, rfl⟩
  | timeSet r =>
      cases hs
      refine Or.inl ⟨rfl, ?_⟩
      split
      · exact ⟨h.net, h.time, h.status, h.save⟩
      · exact h
  | setTime t' r =>
      cases hs
      rw [if_neg (by simp [show granted r l = false from hc]), settled_of_not_granted hc]
      exact Or.inl ⟨rfl, h⟩

theorem holding_run {t : Int} {l₁ l : Ledger} {es : List Entry} {out : List Int} (h : Holding t l₁)
    (hr : Machine.Run TimeLedger.step (Undisturbed t) l₁ es l out) (hout : out = []) : Holding t l := by
  have hinv := hr.history (fun l out => out = [] → Holding t l) (fun _ => h) ?_
  · exact hinv hout
  · intro l e l' o out hl hc hs ho
    obtain ⟨hout, rfl⟩ := List.append_eq_nil_iff.mp ho
    rcases (hl hout).step hc hs with ⟨-, hl'⟩ | ⟨ms, hm⟩
    · exact hl'
    · cases hm

theorem accept_holding {t : Int} {l l' : Ledger} {out : List Int} (hsave : l.save.isSome = true)
    (hs : TimeLedger.step l (.accept t) = some (l', out)) : Holding t l' := by
  simp only [TimeLedger.step] at hs
  split at hs <;> cases hs
  exact ⟨rfl, rfl, armed_disarm _, armed_arm hsave⟩

/-- An accepted network time is the next to be written, and E_SAVE stays
scheduled until it has been, in every run that leaves it undisturbed. -/
theorem accepted_delivered {build : Build} {order : ByteOrder} {opts : Opts} {platform : Bool}
    {setterPid : Nat} {now : Int} {file : File} {n : BitVec 32} {r : Readings} {d₀ d₁ : Daemon}
    {t : Int} (h : startup build order opts platform setterPid now file n r = some d₀)
    (ha : Accepted build d₀ t d₁) :
    Delivers build (fun d e => Undisturbed t (ledger d.state) (entry build d.state e)) t d₁ := by
  obtain ⟨es, d, out, serverTime, o, hr, rfl, hsane, hs⟩ := ha
  have hsave := save_allocated h hr
  have hstart : Holding serverTime.toNat (ledger d₁.state) := by
    have hl := step_ledger hs
    simp only [entry, hsane, if_true] at hl
    exact accept_holding hsave hl
  intro es' d' out' hr' hout
  obtain ⟨fs, hl⟩ := run_ledger (fun _ _ hc => hc) hr'
  have hheld := holding_run hstart hl hout
  refine ⟨hheld.save, fun e d'' o' hc hs' m ms hm => ?_⟩
  rcases hheld.step hc (step_ledger hs') with ⟨hnil, -⟩ | ⟨ms', hms⟩
  · rw [hm] at hnil
    cases hnil
  · rw [hm] at hms
    exact (List.cons.inj hms).1

def NonBlocking (_ : Daemon) : Event → Prop
  | .save readable write _ => readable = false ∧ (write = .written ∨ write = .again)
  | _ => True

theorem newTime_accepted : ∃ d₀ d₁, defaultStart = some d₀ ∧ Accepted fallbackBuild d₀ 1400000100 d₁ ∧
    ∃ d out, EventLoop.step fallbackBuild d₁ (.save false .again .again) = some (d, out) ∧
      messages out = [] ∧ scheduled d.state .save = false := by
  have hrun : ∃ d₀ d out d₁ o d₂ out₂, defaultStart = some d₀ ∧
      Machine.exec (EventLoop.step fallbackBuild) d₀ [.runTlsdate (some 200)] = some (d, out) ∧
      EventLoop.step fallbackBuild d (.tlsdateStatus (.word newTime)) = some (d₁, o) ∧
      EventLoop.step fallbackBuild d₁ (.save false .again .again) = some (d₂, out₂) ∧
      messages out₂ = [] ∧ scheduled d₂.state .save = false :=
    ⟨_, _, _, _, _, _, _, rfl, rfl, rfl, rfl, rfl, rfl⟩
  obtain ⟨d₀, d, out, d₁, o, d₂, out₂, h₀, hx, h₁, h₂, hm, hs⟩ := hrun
  exact ⟨d₀, d₁, h₀, ⟨_, d, out, newTime, o, Machine.Run.of_exec hx, rfl, by decide, h₁⟩,
    d₂, out₂, h₂, hm, hs⟩

theorem accepted_delivered_default : ∃ d₀ d₁, defaultStart = some d₀ ∧
    Accepted fallbackBuild d₀ 1400000100 d₁ ∧
    Delivers fallbackBuild (fun d e => Undisturbed 1400000100 (ledger d.state)
      (entry fallbackBuild d.state e)) 1400000100 d₁ := by
  obtain ⟨d₀, d₁, h₀, ha, -⟩ := newTime_accepted
  exact ⟨d₀, d₁, h₀, ha, accepted_delivered h₀ ha⟩

/-- One EAGAIN is enough: the event has been removed and nothing adds it again. -/
theorem accepted_lost : ¬ ∀ d₀ t d₁, defaultStart = some d₀ → Accepted fallbackBuild d₀ t d₁ →
    Delivers fallbackBuild NonBlocking t d₁ := by
  intro h
  obtain ⟨d₀, d₁, h₀, ha, d, out, hs, hm, hsave⟩ := newTime_accepted
  have hagain : NonBlocking d₁ (.save false .again .again) := ⟨rfl, Or.inr rfl⟩
  have hkept := (h d₀ _ d₁ h₀ ha _ d out (.one hagain hs) hm).1
  rw [hsave] at hkept
  cases hkept

end Tlsdate.NetworkDelivery
