import Tlsdate.EventLoop

namespace Tlsdate.StartupChoice

open HostBytes TimeSource Options TimestampFile DaemonState EventLoop

def heldTime (order : ByteOrder) (file : File) : Option Int :=
  file.bind fun bytes => (fileRead bytes timeSize).map (decodeSigned order)

def diskTime (order : ByteOrder) (opts : Opts) (file : File) : Option Int :=
  if opts.shouldLoadDisk then heldTime order file else none

def saneTimes (build : Build) (now : Int) (disk : Option Int) : List Int :=
  (now :: disk.toList).filter (isSaneTime build)

/-- The latest sane time there is, with its source; a tie goes to the clock. -/
structure Chosen (build : Build) (now : Int) (disk : Option Int) (p : SyncType × Int) : Prop where
  sane : isSaneTime build p.2 = true
  latest : p.2 = (saneTimes build now disk).max?.getD (build.recentCompileDate + 1)
  ofClock : p.1 = .rtc ↔ isSaneTime build now = true ∧ p.2 = now
  ofDisk : p.1 = .disk ↔ disk = some p.2 ∧ ¬ (isSaneTime build now = true ∧ p.2 = now)
  ofBuild : p.1 = .build ↔ saneTimes build now disk = []

variable {build : Build} {order : ByteOrder}

theorem loadDiskTimestamp_none {file : File} (t : Int) (h : heldTime order file = none) :
    loadDiskTimestamp build order file t = (-1, t) := by
  cases file with
  | none => rfl
  | some bytes =>
      have hread : fileRead bytes timeSize = none := Option.map_eq_none_iff.mp h
      simp only [loadDiskTimestamp, hread]

theorem loadDiskTimestamp_some {file : File} {held : Int} (t : Int)
    (h : heldTime order file = some held) : loadDiskTimestamp build order file t =
      if isSaneTime build held then (0, held) else (-1, t) := by
  cases file with
  | none => cases h
  | some bytes =>
      obtain ⟨word, hread, rfl⟩ := Option.map_eq_some_iff.mp h
      simp only [loadDiskTimestamp, hread]

theorem loadDiskTimestamp_kept {file : File} {t : Int}
    (h : (loadDiskTimestamp build order file t).1 = -1) :
    (loadDiskTimestamp build order file t).2 = t := by
  cases hheld : heldTime order file with
  | none => rw [loadDiskTimestamp_none t hheld]
  | some held =>
      rw [loadDiskTimestamp_some t hheld] at h ⊢
      split at h
      next => cases h
      next hs => rw [if_neg hs]

/-- The choice, by whether there is a sane time on disk and on the clock. -/
def choice (build : Build) (now : Int) : Option Int → SyncType × Int
  | none => if isSaneTime build now then (.rtc, now) else (.build, build.recentCompileDate + 1)
  | some held => if isSaneTime build now ∧ held ≤ now then (.rtc, now) else (.disk, held)

theorem later {now held : Int} (h : ¬ (isSaneTime build now = true ∧ held ≤ now))
    (hn : isSaneTime build now = true) : now < held := by
  by_contra hge
  exact h ⟨hn, not_lt.mp hge⟩

theorem initialTime_choice (opts : Opts) (now : Int) (file : File) :
    initialTime build order opts now file =
      choice build now ((diskTime order opts file).filter (isSaneTime build)) := by
  have hclock : (if isSaneTime build now then (SyncType.rtc, now)
      else (.build, build.recentCompileDate + 1)) = choice build now none := rfl
  rw [initialTime, diskTime]
  cases hl : opts.shouldLoadDisk with
  | false => exact hclock
  | true =>
      simp only [if_true]
      cases hheld : heldTime order file with
      | none =>
          rw [loadDiskTimestamp_none now hheld]
          exact hclock
      | some held =>
          rw [loadDiskTimestamp_some now hheld]
          cases hs : isSaneTime build held with
          | false => simpa [Option.filter, hs] using hclock
          | true =>
              simp only [Option.filter, hs, if_true, choice]
              by_cases hle : isSaneTime build now = true ∧ held ≤ now
              · simp [hle, not_lt.mpr hle.2]
              · cases hn : isSaneTime build now with
                | true => simp [later hle hn, hs, not_le.mpr (later hle hn)]
                | false => simp [hs]

theorem choice_chosen (now : Int) (disk : Option Int) :
    Chosen build now disk (choice build now (disk.filter (isSaneTime build))) := by
  have hbuild : isSaneTime build (build.recentCompileDate + 1) = true :=
    isSaneTime_iff.mpr ⟨by simp, build.current⟩
  cases hd : disk.filter (isSaneTime build) with
  | none =>
      have hinsane : ∀ t, isSaneTime build t = true → disk ≠ some t := by
        intro t ht h
        rw [h] at hd
        simp [Option.filter, ht] at hd
      have hlist : disk.toList.filter (isSaneTime build) = [] := by
        rw [← Option.toList_filter, hd, Option.toList_none]
      cases hn : isSaneTime build now with
      | true =>
          refine ⟨?_, ?_, ?_, ?_, ?_⟩ <;> simp [choice, saneTimes, hn, hlist]
      | false =>
          refine ⟨?_, ?_, ?_, ?_, ?_⟩ <;> simp [choice, saneTimes, hn, hlist, hbuild]
          exact hinsane _ hbuild
  | some held =>
      obtain ⟨rfl, hs⟩ := Option.filter_eq_some_iff.mp hd
      by_cases hle : isSaneTime build now = true ∧ held ≤ now
      · refine ⟨?_, ?_, ?_, ?_, ?_⟩ <;> simp [choice, saneTimes, hs, hle]
      · cases hn : isSaneTime build now with
        | true =>
            have hlt := later hle hn
            refine ⟨?_, ?_, ?_, ?_, ?_⟩ <;> simp [choice, saneTimes, hs, hn, not_le.mpr hlt]
            · exact hlt.le
            · exact hlt.ne'
            · exact hlt.ne'
        | false => refine ⟨?_, ?_, ?_, ?_, ?_⟩ <;> simp [choice, saneTimes, hs, hn]

theorem Chosen.held_le {now held : Int} {disk : Option Int} {p : SyncType × Int}
    (h : Chosen build now disk p) (hd : disk = some held) (hs : isSaneTime build held = true) :
    held ≤ p.2 := by
  have hmem : held ∈ saneTimes build now disk := by simp [saneTimes, hd, hs]
  cases hm : (saneTimes build now disk).max? with
  | none =>
      rw [List.max?_eq_none_iff.mp hm] at hmem
      cases hmem
  | some t =>
      have hlatest := h.latest
      rw [hm, Option.getD_some] at hlatest
      rw [hlatest]
      exact (List.max?_eq_some_iff.mp hm).2 held hmem

theorem heldTime_saved (old : List UInt8) {t : Int} (h : isSaneTime build t = true) :
    heldTime order (some (pwrite old (saveTimestamp order t))) = some t := by
  have hd : decodeSigned order (saveTimestamp order t) = t :=
    decodeSigned_encodeSigned order timeSize t (sane_bmod h)
  simp only [heldTime, Option.bind_some, fileRead_pwrite, Option.map_some, hd]

/-- What `main` has chosen when it saves for the first time is the latest sane
time; a loader that fails leaves its argument alone; and no start goes back
behind a time that was saved. -/
theorem start_chosen (opts : Opts) (setterPid : Nat) (now : Int) (file : File) :
    Chosen build now (diskTime order opts file)
        ((savedStart build order opts setterPid now file).lastSyncType,
          (savedStart build order opts setterPid now file).lastTime) ∧
      (∀ t, (loadDiskTimestamp build order file t).1 = -1 →
        (loadDiskTimestamp build order file t).2 = t) ∧
      ∀ old t, isSaneTime build t = true → opts.shouldLoadDisk = true →
        file = some (pwrite old (saveTimestamp order t)) →
          t ≤ (savedStart build order opts setterPid now file).lastTime := by
  have hchosen : Chosen build now (diskTime order opts file)
      ((savedStart build order opts setterPid now file).lastSyncType,
        (savedStart build order opts setterPid now file).lastTime) := by
    have h := @choice_chosen build now (diskTime order opts file)
    rw [← initialTime_choice] at h
    simpa [savedStart] using h
  refine ⟨hchosen, fun t h => loadDiskTimestamp_kept h, ?_⟩
  intro old t hs hl hf
  refine hchosen.held_le ?_ hs
  rw [diskTime, if_pos hl, hf, heldTime_saved old hs]

end Tlsdate.StartupChoice
