import Tlsdate.TimeSetter

namespace Tlsdate.SetterReplies

open TimeSource Options TimeSetter

/-- The reply that the names of the status words call for. -/
def expectedReply (build : Build) (m : Int) : Int :=
  if isSaneTime build |m| then setterTimeSet else setterBadTime

def RepliesCorrect (build : Build) (opts : Opts) (garbage : Int) (msgs : List Int) : Prop :=
  notified (timeSetterCoprocess build opts garbage true true (wholeReads msgs)).2 =
    msgs.map (expectedReply build)

instance (build : Build) (opts : Opts) (garbage : Int) (msgs : List Int) :
    Decidable (RepliesCorrect build opts garbage msgs) :=
  inferInstanceAs (Decidable (_ = _))

/-- Either all times are sane, or the refused ones come first and the stack
happened to hold SETTER_BAD_TIME where `status` was put. -/
def BadTimesLead (build : Build) (garbage : Int) (msgs : List Int) : Prop :=
  (∀ m ∈ msgs, isSaneTime build |m| = true) ∨
    (garbage = setterBadTime ∧ ∃ bad good, msgs = bad ++ good ∧
      (∀ m ∈ bad, isSaneTime build |m| = false) ∧ ∀ m ∈ good, isSaneTime build |m| = true)

def answers (build : Build) : Int → List Int → List Int
  | _, [] => []
  | st, m :: ms =>
      if isSaneTime build |m| then setterTimeSet :: answers build setterTimeSet ms
      else st :: answers build st ms

variable {build : Build} {opts : Opts}

theorem loopBody_answers (st : Int) (saveFd : Bool) {m : Int} (hm : m ≠ 0) :
    let st' := if isSaneTime build |m| then setterTimeSet else st
    (loopBody build opts allSucceed st saveFd (.whole m)).1 = .waiting st' saveFd ∧
      notified (loopBody build opts allSucceed st saveFd (.whole m)).2 = [st'] := by
  cases hs : isSaneTime build |m| with
  | false => simp [loopBody_insane allSucceed st saveFd hm hs, notified]
  | true =>
      have hok := @applyTime_allSucceed opts saveFd (!decide (m < 0)) |m|
      have hquiet : notified (applyTime opts allSucceed saveFd (!decide (m < 0)) |m|).2 = [] := by
        simp only [applyTime]
        repeat' split
        all_goals rfl
      rw [loopBody_sane allSucceed st saveFd hs]
      rcases happ : applyTime opts allSucceed saveFd (!decide (m < 0)) |m| with ⟨r, es⟩
      rw [happ] at hok hquiet
      subst hok
      simp only [if_true, notified_append, hquiet, List.nil_append]
      exact ⟨trivial, rfl⟩

theorem serve_answers (st : Int) (saveFd : Bool) (msgs : List Int) (hz : ∀ m ∈ msgs, m ≠ 0) :
    notified (serve build opts (.waiting st saveFd) (wholeReads msgs)).2 = answers build st msgs := by
  induction msgs generalizing st with
  | nil => rfl
  | cons m ms ih =>
      obtain ⟨hc, hn⟩ := @loopBody_answers build opts st saveFd m (hz m (by simp))
      have hms := fun st' => ih st' (fun x hx => hz x (by simp [hx]))
      simp only [wholeReads, List.map_cons, serve, notified_append, hn, hc] at hms ⊢
      rw [hms, answers]
      split <;> simp_all

theorem answers_timeSet (msgs : List Int) :
    answers build setterTimeSet msgs = msgs.map (expectedReply build) ↔
      ∀ m ∈ msgs, isSaneTime build |m| = true := by
  induction msgs with
  | nil => simp [answers]
  | cons m ms ih =>
      cases hs : isSaneTime build |m| with
      | true => simp [answers, expectedReply, hs, ih]
      | false => simp [answers, expectedReply, hs, setterTimeSet, setterBadTime]

theorem answers_correct (st : Int) (msgs : List Int) :
    answers build st msgs = msgs.map (expectedReply build) ↔ BadTimesLead build st msgs := by
  induction msgs with
  | nil => simp [answers, BadTimesLead]
  | cons m ms ih =>
      cases hs : isSaneTime build |m| with
      | true =>
          have ht := @answers_timeSet build ms
          simp only [answers, hs, if_true, List.map_cons, expectedReply, List.cons.injEq, true_and]
          rw [ht]
          constructor
          · intro h
            exact Or.inl (by simpa [hs] using h)
          · rintro (h | ⟨_, bad, good, he, hb, hg⟩)
            · exact fun x hx => h x (by simp [hx])
            · cases bad with
              | nil => exact fun x hx => hg x (by simp only [List.nil_append] at he; simp [← he, hx])
              | cons b bad =>
                  simp only [List.cons_append, List.cons.injEq] at he
                  have hb := hb b (by simp)
                  rw [← he.1, hs] at hb
                  cases hb
      | false =>
          have hne : ¬ ∀ x ∈ m :: ms, isSaneTime build |x| = true := by
            intro h
            rw [h m (by simp)] at hs
            cases hs
          simp only [answers, hs, List.map_cons, expectedReply, List.cons.injEq, Bool.false_eq_true,
            if_false, BadTimesLead, hne, false_or]
          rw [ih]
          constructor
          · rintro ⟨rfl, h | ⟨_, bad, good, rfl, hb, hg⟩⟩
            · exact ⟨rfl, [m], ms, rfl, by simpa using hs, h⟩
            · exact ⟨rfl, m :: bad, good, rfl, by simpa [hs] using hb, hg⟩
          · rintro ⟨rfl, bad, good, he, hb, hg⟩
            cases bad with
            | nil => exact absurd (by simpa [he] using hg) hne
            | cons b bad =>
                simp only [List.cons_append, List.cons.injEq] at he
                exact ⟨rfl, Or.inr ⟨rfl, bad, good, he.2, fun x hx => hb x (by simp [hx]), hg⟩⟩

/-- SETTER_BAD_TIME is assigned where the time has been found sane, and never
where it has not; what a refused time is answered with is left from before. -/
theorem repliesCorrect_iff (build : Build) (opts : Opts) (garbage : Int) (msgs : List Int)
    (hz : ∀ m ∈ msgs, m ≠ 0) :
    RepliesCorrect build opts garbage msgs ↔ BadTimesLead build garbage msgs := by
  rw [← answers_correct, RepliesCorrect]
  have hquiet : notified (start opts garbage true true).2 = [] := by
    rw [start_ready]
    split <;> rfl
  rw [timeSetterCoprocess, notified_append, hquiet, start_ready, List.nil_append,
    serve_answers _ _ _ hz]

/-- The refused time 5 is announced as set, as the time before it was. -/
theorem repliesCorrect_stale :
    ¬ RepliesCorrect fallbackBuild (setConfDefaults fallbackBuild) setterBadTime [1400000000, 5] := by
  decide

theorem repliesCorrect_iff_sane :
    RepliesCorrect fallbackBuild (setConfDefaults fallbackBuild) 0 [1400000000, -1400000001] ↔
      BadTimesLead fallbackBuild 0 [1400000000, -1400000001] :=
  repliesCorrect_iff fallbackBuild (setConfDefaults fallbackBuild) 0 [1400000000, -1400000001]
    (by decide)

end Tlsdate.SetterReplies
