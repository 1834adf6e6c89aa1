import Tlsdate.TimeSetter

namespace Tlsdate.SetterEffects

open HostBytes TimeSource Options TimestampFile TimeSetter

def untilZero (msgs : List Int) : List Int := msgs.takeWhile (· ≠ 0)

def saneTimes (build : Build) (msgs : List Int) : List Int :=
  ((untilZero msgs).map (|·|)).filter (isSaneTime build)

def savedTimes (build : Build) (msgs : List Int) : List Int :=
  (untilZero msgs).filter (isSaneTime build)

variable {build : Build} {opts : Opts} {order : ByteOrder}

theorem clockCalls_applyTime (sys : SysCalls) (saveFd save : Bool) (sec : Int) :
    clockCalls (applyTime opts sys saveFd save sec).2 = if opts.dryRun then [] else [sec] := by
  simp only [applyTime]
  repeat' split
  all_goals simp_all [clockCalls]

theorem clockCalls_notifyAndDie (st : Int) : clockCalls (notifyAndDie st).2 = [] := rfl

theorem clockCalls_loopBody (sys : SysCalls) (st : Int) (saveFd : Bool) (r : TimeRead) :
    clockCalls (loopBody build opts sys st saveFd r).2 =
      match r with
      | .whole m => if isSaneTime build |m| && !opts.dryRun then [|m|] else []
      | _ => [] := by
  have hbody := @loopBody_iteration build opts sys st saveFd r
  generalize loopBody build opts sys st saveFd r = body at hbody ⊢
  have hn : ∀ st, clockCalls [Effect.notify st] = [] := fun _ => rfl
  cases hbody with
  | again h => rcases h with rfl | rfl <;> rfl
  | lost h => rcases h with rfl | rfl <;> rfl
  | ended =>
      have h0 : isSaneTime build 0 = false := by
        by_contra h
        exact absurd (isSaneTime_pos (Bool.eq_true_of_not_eq_false h)) (lt_irrefl 0)
      simp [clockCalls_notifyAndDie, h0]
  | refused hm hs => simp [hn, hs]
  | @broken m st' es hs happ =>
      have hc := @clockCalls_applyTime opts sys saveFd (!decide (m < 0)) |m|
      rw [happ] at hc
      cases hd : opts.dryRun <;> simp [clockCalls_append, clockCalls_notifyAndDie, hc, hd, hs]
  | @applied m st' es hs happ =>
      have hc := @clockCalls_applyTime opts sys saveFd (!decide (m < 0)) |m|
      rw [happ] at hc
      cases hd : opts.dryRun <;> simp [clockCalls_append, hn, hc, hd, hs]

theorem clockCalls_start (garbage : Int) (opened sandboxed : Bool) :
    clockCalls (start opts garbage opened sandboxed).2 = [] := by
  simp only [start]
  repeat' split
  all_goals rfl

theorem clockCalls_serve (c : Coprocess) (reads : List (TimeRead × SysCalls)) :
    ∀ sec ∈ clockCalls (serve build opts c reads).2,
      isSaneTime build sec = true ∧ opts.dryRun = false := by
  induction reads generalizing c with
  | nil => cases c <;> simp [serve, clockCalls]
  | cons r rest ih =>
      cases c with
      | exited => simp [serve, clockCalls]
      | waiting st saveFd =>
          obtain ⟨r, sys⟩ := r
          intro sec hsec
          simp only [serve, clockCalls_append, List.mem_append, clockCalls_loopBody] at hsec
          rcases hsec with hsec | hsec
          · cases r with
            | interrupted | failed | endOfPipe | short => cases hsec
            | whole m =>
                simp only at hsec
                split at hsec
                next h =>
                  simp only [Bool.and_eq_true, Bool.not_eq_true'] at h
                  rw [List.mem_singleton.mp hsec]
                  exact h
                next => cases hsec
          · exact ih _ sec hsec

theorem serve_zero (c : Coprocess) (sys : SysCalls) (later : List (TimeRead × SysCalls)) :
    clockCalls (serve build opts c ((.whole 0, sys) :: later)).2 = [] := by
  cases c with
  | exited => rfl
  | waiting st saveFd =>
      simp only [serve, loopBody_zero, notifyAndDie, serve_exited]
      rfl

theorem fileAfter_loopBody (st : Int) (saveFd : Bool) {m : Int} (hm : m ≠ 0) (file : File)
    (hd : opts.dryRun = false) :
    fileAfter order file (loopBody build opts allSucceed st saveFd (.whole m)).2 =
      if isSaneTime build m && saveFd then some (pwrite (file.getD []) (saveTimestamp order m))
      else file := by
  cases hs : isSaneTime build |m| with
  | false =>
      have hm' : isSaneTime build m = false := by
        rcases abs_choice m with h | h
        · rwa [h] at hs
        · by_contra hc
          rw [abs_of_pos (isSaneTime_pos (by simpa using hc))] at hs
          exact hc hs
      simp [loopBody_insane allSucceed st saveFd hm hs, hm', fileAfter, Effect.onFile]
  | true =>
      rw [loopBody_sane allSucceed st saveFd hs]
      by_cases hneg : m < 0
      · have hm' : isSaneTime build m = false := by
          have h := isSaneTime_neg hs
          rwa [abs_of_neg hneg, neg_neg] at h
        cases hw : opts.shouldSyncHwclock <;>
          simp [applyTime, allSucceed, hd, hw, hneg, hm', fileAfter, Effect.onFile]
      · have habs : |m| = m := abs_of_nonneg (by omega)
        rw [habs] at hs ⊢
        cases hw : opts.shouldSyncHwclock <;> cases saveFd <;>
          simp [applyTime, allSucceed, hd, hw, hneg, hs, fileAfter, Effect.onFile]

theorem loopBody_waits (st : Int) (saveFd : Bool) {m : Int} (hm : m ≠ 0) :
    ∃ st', (loopBody build opts allSucceed st saveFd (.whole m)).1 = .waiting st' saveFd := by
  cases hs : isSaneTime build |m| with
  | false => exact ⟨st, by rw [loopBody_insane allSucceed st saveFd hm hs]⟩
  | true =>
      have hok := @applyTime_allSucceed opts saveFd (!decide (m < 0)) |m|
      rw [loopBody_sane allSucceed st saveFd hs]
      rcases happ : applyTime opts allSucceed saveFd (!decide (m < 0)) |m| with ⟨r, es⟩
      rw [happ] at hok
      subst hok
      exact ⟨_, rfl⟩

theorem serve_clock (st : Int) (saveFd : Bool) (msgs : List Int) (hd : opts.dryRun = false) :
    clockCalls (serve build opts (.waiting st saveFd) (wholeReads msgs)).2 = saneTimes build msgs := by
  induction msgs generalizing st with
  | nil => rfl
  | cons m ms ih =>
      by_cases hm : m = 0
      · subst hm
        exact serve_zero _ _ _
      · obtain ⟨st', hc⟩ := @loopBody_waits build opts st saveFd m hm
        have hms := ih st'
        simp only [wholeReads, List.map_cons, serve, clockCalls_append, clockCalls_loopBody, hc]
          at hms ⊢
        rw [hms]
        simp only [saneTimes, untilZero, List.takeWhile_cons, ne_eq, hm, not_false_eq_true,
          decide_true, if_true, List.map_cons, List.filter_cons, hd, Bool.not_false, Bool.and_true]
        split <;> rfl

theorem serve_file (st : Int) (msgs : List Int) (file : File) (hd : opts.dryRun = false)
    (t : Int) :
    loadDiskTimestamp build order
        (fileAfter order file (serve build opts (.waiting st true) (wholeReads msgs)).2) t =
      match (savedTimes build msgs).getLast? with
      | some v => (0, v)
      | none => loadDiskTimestamp build order file t := by
  induction msgs generalizing st file with
  | nil => rfl
  | cons m ms ih =>
      by_cases hm : m = 0
      · subst hm
        simp [wholeReads, serve, loopBody_zero, notifyAndDie, serve_exited, fileAfter, Effect.onFile,
          savedTimes, untilZero]
      · obtain ⟨st', hc⟩ := @loopBody_waits build opts st true m hm
        have hms := ih st' (fileAfter order file
          (loopBody build opts allSucceed st true (.whole m)).2)
        have hu : untilZero (m :: ms) = m :: untilZero ms := by simp [untilZero, hm]
        simp only [wholeReads, List.map_cons, serve, fileAfter_append, hc] at hms ⊢
        rw [hms, fileAfter_loopBody st true hm file hd, savedTimes, savedTimes, hu, List.filter_cons]
        cases hs : isSaneTime build m with
        | false => simp
        | true =>
            simp only [Bool.and_true, if_true, loadDiskTimestamp_saved _ hs, List.getLast?_cons]
            cases ((untilZero ms).filter (isSaneTime build)).getLast? <;> rfl

/-- The clock is set once for each sane message up to the shutdown request, and
for nothing else; the file ends with the last positive one. -/
theorem setter_effects (build : Build) (order : ByteOrder) (opts : Opts) (garbage : Int)
    (file : File) :
    (∀ opened sandboxed reads, ∀ sec ∈ clockCalls
        (timeSetterCoprocess build opts garbage opened sandboxed reads).2,
      isSaneTime build sec = true ∧ opts.dryRun = false) ∧
    (∀ opened sandboxed reads sys later,
      clockCalls (timeSetterCoprocess build opts garbage opened sandboxed
        (reads ++ (.whole 0, sys) :: later)).2 =
      clockCalls (timeSetterCoprocess build opts garbage opened sandboxed reads).2) ∧
    (opts.dryRun = false → ∀ msgs,
      clockCalls (timeSetterCoprocess build opts garbage true true (wholeReads msgs)).2 =
        saneTimes build msgs) ∧
    (opts.dryRun = false → opts.shouldSaveDisk = true → ∀ msgs t,
      loadDiskTimestamp build order (fileAfter order file
          (timeSetterCoprocess build opts garbage true true (wholeReads msgs)).2) t =
        match (savedTimes build msgs).getLast? with
        | some v => (0, v)
        | none => loadDiskTimestamp build order file t) := by
  refine ⟨?_, ?_, ?_, ?_⟩
  · intro opened sandboxed reads sec hsec
    rw [timeSetterCoprocess, clockCalls_append, clockCalls_start, List.nil_append] at hsec
    exact clockCalls_serve _ _ sec hsec
  · intro opened sandboxed reads sys later
    simp only [timeSetterCoprocess, clockCalls_append, serve_append, serve_zero, List.append_nil]
  · intro hd msgs
    rw [timeSetterCoprocess, clockCalls_append, clockCalls_start, start_ready, List.nil_append]
    exact serve_clock _ _ msgs hd
  · intro hd hsave msgs t
    simp only [timeSetterCoprocess, start_ready, hsave, hd, Bool.not_false, Bool.and_true, if_true,
      fileAfter_append]
    rw [serve_file _ msgs _ hd t]
    split
    · rfl
    · exact loadDiskTimestamp_create file t

end Tlsdate.SetterEffects
