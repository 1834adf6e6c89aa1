import Tlsdate.Blocks
import Tlsdate.Machine
import Tlsdate.Rtc

namespace Tlsdate.BusWatches

open Blocks
open Rtc (Timeval)

def dbusWatchReadable : BitVec 32 := 1
def dbusWatchWritable : BitVec 32 := 2

def evTimeout : BitVec 16 := 0x01
def evRead : BitVec 16 := 0x02
def evWrite : BitVec 16 := 0x04
def evSignal : BitVec 16 := 0x08
def evPersist : BitVec 16 := 0x10

def dbusToEvent (flags : BitVec 32) : BitVec 16 :=
  (if flags &&& dbusWatchReadable ≠ 0 then evRead else 0) |||
    (if flags &&& dbusWatchWritable ≠ 0 then evWrite else 0)

def eventToDbus (events : BitVec 16) : BitVec 32 :=
  (if events &&& evRead ≠ 0 then dbusWatchReadable else 0) |||
    (if events &&& evWrite ≠ 0 then dbusWatchWritable else 0)

/-- A DBusWatch or a DBusTimeout, by what libdbus wants to be told of. -/
inductive Kind
  | watch (flags : BitVec 32)
  | timeout (ms : Int)
  deriving DecidableEq, Repr

/-- What libdbus keeps: `data` is the pointer of `dbus_watch_set_data`, whose free function
is always `dbus_free`, and `added` whether the last add function returned TRUE and no remove
function has been called since. -/
structure Handle where
  kind : Kind
  enabled : Bool
  added : Bool
  data : Option Nat
  deriving DecidableEq, Repr

/-- A `struct dbus_event_data`; its `state` is that of the process. -/
structure EventData where
  event : Option Nat
  deriving DecidableEq, Repr

/-- A `struct event` with the argument of its callback, the handle that it was made for.
While it is pending it may have a timeout. -/
structure Event where
  what : BitVec 16
  arg : Nat
  pending : Option (Option Timeval)
  deriving DecidableEq, Repr

inductive Stage
  | handles (flags : BitVec 32)
  | dispatches
  | expires
  deriving DecidableEq, Repr

structure Handling where
  handle : Nat
  data : Nat
  stage : Stage
  deriving DecidableEq, Repr

structure Glue where
  handles : Nat → Option Handle
  datas : Store EventData
  events : Store Event
  handling : Option Handling

structure Luck where
  malloc : Bool
  eventNew : Bool
  eventAdd : Bool
  deriving DecidableEq, Repr

/-- An event without a descriptor or a signal that is added without a timeout waits for nothing. -/
def eventAdd (tv : Option Timeval) (ev : Event) : Event :=
  if tv.isSome ∨ ev.what &&& (evRead ||| evWrite ||| evSignal) ≠ 0 then { ev with pending := some tv }
  else ev

def eventDel (ev : Event) : Event := { ev with pending := none }

def eventPending (ev : Event) (mask : BitVec 16) : Bool :=
  match ev.pending with
  | none => false
  | some tv => mask &&& (ev.what &&& (evRead ||| evWrite ||| evSignal)) ≠ 0 ||
      (mask &&& evTimeout ≠ 0 && tv.isSome)

def interval (ms : Int) : Timeval := ⟨ms.tdiv 1000, ms.tmod 1000 * 1000⟩

/-- A set data function calls the free function on the data that the handle had. `none`
stands for a read, a write or a free of what is not allocated. -/
def dbusFree (data : Option Nat) (datas : Store EventData) : Option (Store EventData) :=
  match data with
  | none => some datas
  | some d => datas.free d

/-- `add_watch` and `add_timeout`, which differ in the flags of the event and in its timeout. -/
def addHandle (what : BitVec 16) (tv : Option Timeval) (i : Nat) (h : Handle) (luck : Luck)
    (b : Glue) : Option (Glue × Bool) :=
  if luck.malloc = false then some (b, false)
  else
    let d := b.datas.next
    let datas := b.datas.alloc ⟨none⟩
    if luck.eventNew = false then (datas.free d).map fun datas => ({ b with datas := datas }, false)
    else
      let e := b.events.next
      let events := b.events.alloc ⟨what, i, none⟩
      (datas.write d ⟨some e⟩).bind fun datas =>
      (dbusFree h.data datas).bind fun datas =>
      let b : Glue :=
        { b with handles := Function.update b.handles i (some { h with data := some d })
                 datas := datas
                 events := events }
      if h.enabled = false then some (b, true)
      else if luck.eventAdd then
        (events.modify e (eventAdd tv)).map fun events => ({ b with events := events }, true)
      else
        -- The handle keeps its pointer to the data.
        (events.free e).bind fun events => (datas.free d).map fun datas =>
          ({ b with datas := datas, events := events }, false)

def addWatch (flags : BitVec 32) : Nat → Handle → Luck → Glue → Option (Glue × Bool) :=
  addHandle (evPersist ||| dbusToEvent flags) none

def addTimeout (ms : Int) : Nat → Handle → Luck → Glue → Option (Glue × Bool) :=
  addHandle (evTimeout ||| evPersist) (some (interval ms))

def addFunction : Kind → Nat → Handle → Luck → Glue → Option (Glue × Bool)
  | .watch flags => addWatch flags
  | .timeout ms => addTimeout ms

/-- `remove_watch` and `remove_timeout`. The data stays, with a pointer to the event. -/
def removeFunction (h : Handle) (b : Glue) : Option Glue :=
  match h.data with
  | none => some b
  | some d => (b.datas.block d).bind fun data =>
      match data.event with
      | none => some b
      | some e => (b.events.modify e eventDel).bind fun events =>
          (events.free e).map fun events => { b with events := events }

/-- Neither of the toggle functions looks at what `event_add` returns. -/
def rearm (e : Nat) (mask : BitVec 16) (tv : Option Timeval) (enabled ok : Bool) (b : Glue) :
    Option Glue :=
  (b.events.modify e fun ev =>
    let ev := if eventPending ev mask then eventDel ev else ev
    if enabled && ok then eventAdd tv ev else ev).map fun events => { b with events := events }

def toggleWatch (flags : BitVec 32) (h : Handle) (ok : Bool) (b : Glue) : Option Glue :=
  match h.data with
  | none => some b
  | some d => (b.datas.block d).bind fun data =>
      match data.event with
      | none => some b
      | some e => rearm e (dbusToEvent flags) none h.enabled ok b

/-- Unlike `toggle_watch` it does not look whether there is an event. -/
def toggleTimeout (ms : Int) (h : Handle) (ok : Bool) (b : Glue) : Option Glue :=
  h.data.bind fun d => (b.datas.block d).bind fun data =>
    data.event.bind fun e => rearm e evTimeout (some (interval ms)) h.enabled ok b

def toggleFunction (h : Handle) : Bool → Glue → Option Glue :=
  match h.kind with
  | .watch flags => toggleWatch flags h
  | .timeout ms => toggleTimeout ms h

inductive Out
  | answered (i : Nat) (ok : Bool)
  /-- A call of `dbus_watch_handle`. -/
  | told (i : Nat) (flags : BitVec 32)
  /-- A call of `dbus_timeout_handle`. -/
  | expired (i : Nat)
  | dispatched
  | fault
  deriving DecidableEq, Repr

/-- A handler up to its first call into libdbus that has an effect. It reads `data->state`. -/
def handler (i : Nat) (what : BitVec 16) (b : Glue) : Option (Glue × List Out) :=
  (b.handles i).bind fun h => h.data.bind fun d => (b.datas.block d).map fun _ =>
    match h.kind with
    | .watch _ => ({ b with handling := some ⟨i, d, .handles (eventToDbus what)⟩ },
        [.told i (eventToDbus what)])
    | .timeout _ => ({ b with handling := some ⟨i, d, .expires⟩ }, [.expired i])

/-- What libdbus and libevent do. The calls of libdbus may come from within a handler. -/
inductive Act
  | new (i : Nat) (kind : Kind) (enabled : Bool)
  | add (i : Nat) (luck : Luck)
  | toggle (i : Nat) (enabled ok : Bool)
  | remove (i : Nat)
  /-- The last reference to the handle goes, and its data with it. -/
  | drop (i : Nat)
  | fire (e : Nat) (what : BitVec 16)
  /-- `dbus_watch_handle` had too little memory. -/
  | retry
  | dispatch
  | finish
  deriving DecidableEq, Repr

def orFault (b : Glue) (r : Option (Glue × List Out)) : Option (Glue × List Out) :=
  some (r.getD (b, [.fault]))

def Glue.setHandle (b : Glue) (i : Nat) (h : Option Handle) : Glue :=
  { b with handles := Function.update b.handles i h }

def step : Machine.Step Glue Act Out := fun b a =>
  match a with
  | .new i kind enabled =>
      -- a handle that a handler still refers to is not given out again
      if b.handles i = none ∧ b.handling.all (·.handle != i) then
        some (b.setHandle i (some ⟨kind, enabled, false, none⟩), [])
      else none
  | .add i luck =>
      (b.handles i).bind fun h =>
        if h.added then none
        else orFault b ((addFunction h.kind i h luck b).map fun r =>
          (r.1.setHandle i ((r.1.handles i).map fun h => { h with added := r.2 }), [.answered i r.2]))
  | .toggle i enabled ok =>
      (b.handles i).bind fun h =>
        let h := { h with enabled := enabled }
        if h.added then
          orFault b ((toggleFunction h ok (b.setHandle i (some h))).map fun b => (b, []))
        else none
  | .remove i =>
      (b.handles i).bind fun h =>
        if h.added then
          orFault b ((removeFunction h b).map fun b =>
            (b.setHandle i (some { h with added := false }), []))
        else none
  | .drop i =>
      (b.handles i).bind fun h =>
        if h.added then none
        else orFault b ((dbusFree h.data b.datas).map fun datas =>
          ({ b.setHandle i none with datas := datas }, []))
  | .fire e what =>
      (b.events.block e).bind fun ev =>
        if b.handling = none ∧ ev.pending.isSome ∧ what ≠ 0 ∧
            what &&& (ev.what &&& ~~~evPersist) = what then
          orFault b (handler ev.arg what b)
        else none
  | .retry =>
      b.handling.bind fun x =>
        match x.stage with
        | .handles flags =>
            orFault b ((b.handles x.handle).map fun _ => (b, [.told x.handle flags]))
        | _ => none
  | .dispatch =>
      b.handling.bind fun x =>
        if x.stage = .expires then none
        else orFault b ((b.datas.block x.data).map fun _ =>
          ({ b with handling := some { x with stage := .dispatches } }, [.dispatched]))
  | .finish =>
      b.handling.bind fun x =>
        match x.stage with
        | .handles _ => none
        | _ => orFault b ((b.datas.block x.data).map fun _ => ({ b with handling := none }, []))

def start : Glue := ⟨fun _ => none, Store.empty, Store.empty, none⟩

def Kind.what : Kind → BitVec 16
  | .watch flags => evPersist ||| dbusToEvent flags
  | .timeout _ => evTimeout ||| evPersist

def Kind.timeval : Kind → Option Timeval
  | .watch _ => none
  | .timeout ms => some (interval ms)

def Kind.mask : Kind → BitVec 16
  | .watch flags => dbusToEvent flags
  | .timeout _ => evTimeout

def Kind.waits : Kind → Bool
  | .watch flags => dbusToEvent flags ≠ 0
  | .timeout _ => true

def Handle.wanted (h : Handle) (refused : Bool) : Option (Option Timeval) :=
  if h.enabled && !refused && h.kind.waits then some h.kind.timeval else none

def without (data : Option Nat) (f : Nat → Option EventData) : Nat → Option EventData :=
  match data with
  | none => f
  | some d => Function.update f d none

variable {b : Glue} {i d e : Nat} {h : Handle} {data : Option Nat} {f : Nat → Option EventData}
  {x : Option EventData} {datas : Store EventData} {luck : Luck} {what : BitVec 16}
  {tv : Option Timeval} {r : Bool}

theorem without_self : without (some d) f d = none := Function.update_self ..

theorem without_other (hne : data ≠ some d) : without data f d = f d := by
  cases data with
  | none => rfl
  | some d' => exact Function.update_of_ne (fun he => hne (congrArg some he.symm)) ..

theorem without_update (hne : data ≠ some d) :
    without data (Function.update f d x) = Function.update (without data f) d x := by
  cases data with
  | none => rfl
  | some d' => exact Function.update_comm (fun he => hne (congrArg some he.symm)) ..

theorem dbusFree_live (hlive : ∀ d, data = some d → (datas.block d).isSome = true) :
    ∃ datas', dbusFree data datas = some datas' ∧ datas'.block = without data datas.block ∧
      datas'.next = datas.next := by
  cases data with
  | none => exact ⟨datas, rfl, rfl, rfl⟩
  | some d =>
      obtain ⟨x, hx⟩ := Option.isSome_iff_exists.mp (hlive d rfl)
      exact put_live hx

theorem dbusFree_dangling (hnone : datas.block d = none) : dbusFree (some d) datas = none :=
  put_none.mpr hnone

theorem addHandle_early (what : BitVec 16) (tv : Option Timeval) (i : Nat) (h : Handle) (b : Glue)
    (hluck : ¬ (luck.malloc = true ∧ luck.eventNew = true)) :
    ∃ b', addHandle what tv i h luck b = some (b', false) ∧ b'.handles = b.handles ∧
      b'.datas.block = b.datas.block ∧ b.datas.next ≤ b'.datas.next ∧ b'.events = b.events ∧
      b'.handling = b.handling := by
  by_cases hmalloc : luck.malloc = true
  · have hnew : luck.eventNew = false := Bool.eq_false_iff.mpr fun hnew => hluck ⟨hmalloc, hnew⟩
    obtain ⟨datas, hfree, hblock, hnext⟩ := alloc_free b.datas ⟨none⟩
    refine ⟨{ b with datas := datas }, ?_, rfl, hblock, hnext ▸ Nat.le_succ _, rfl, rfl⟩
    rw [addHandle, if_neg (by simp [hmalloc]), if_pos hnew]
    exact congrArg (Option.map fun datas => ({ b with datas := datas }, false)) hfree
  · rw [addHandle, if_pos (by simpa using hmalloc)]
    exact ⟨b, rfl, rfl, rfl, Nat.le_refl _, rfl, rfl⟩

theorem addHandle_dangling (hmalloc : luck.malloc = true) (hnew : luck.eventNew = true)
    (hd : h.data = some d) (holder : d < b.datas.next) (hnone : b.datas.block d = none) :
    addHandle what tv i h luck b = none := by
  obtain ⟨datas, hwrite, hblock, -⟩ :=
    alloc_write b.datas ⟨none⟩ ⟨some b.events.next⟩
  have hgone : datas.block d = none := by
    rw [hblock, Function.update_of_ne (Nat.ne_of_lt holder), hnone]
  simp only [addHandle, hmalloc, hnew, Bool.true_eq_false, if_false, hwrite, Option.bind_some, hd,
    dbusFree_dangling hgone, Option.bind_none]

theorem addHandle_published (what : BitVec 16) (tv : Option Timeval) (i : Nat)
    (hmalloc : luck.malloc = true) (hnew : luck.eventNew = true)
    (holder : ∀ d, h.data = some d → d < b.datas.next)
    (hlive : ∀ d, h.data = some d → (b.datas.block d).isSome = true) :
    ∃ b', addHandle what tv i h luck b = some (b', !h.enabled || luck.eventAdd) ∧
      b'.handles = Function.update b.handles i (some { h with data := some b.datas.next }) ∧
      b'.datas.block = Function.update (without h.data b.datas.block) b.datas.next
        (if !h.enabled || luck.eventAdd then some ⟨some b.events.next⟩ else none) ∧
      b'.datas.next = b.datas.next + 1 ∧
      b'.events.block = Function.update b.events.block b.events.next
        (if !h.enabled || luck.eventAdd then
          some (if h.enabled then eventAdd tv ⟨what, i, none⟩ else ⟨what, i, none⟩) else none) ∧
      b'.handling = b.handling := by
  obtain ⟨datas, hwrite, hblock, hnext⟩ :=
    alloc_write b.datas ⟨none⟩ ⟨some b.events.next⟩
  have hne : h.data ≠ some b.datas.next := fun hd => Nat.lt_irrefl _ (holder _ hd)
  have hlive' : ∀ d, h.data = some d → (datas.block d).isSome = true := by
    intro d hd
    rw [hblock, Function.update_of_ne (Nat.ne_of_lt (holder d hd))]
    exact hlive d hd
  obtain ⟨datas₁, hfree, hblock₁, hnext₁⟩ := dbusFree_live hlive'
  rw [hblock, without_update hne] at hblock₁
  simp only [addHandle, hmalloc, hnew, Bool.true_eq_false, if_false, hwrite, Option.bind_some, hfree]
  cases hen : h.enabled with
  | false =>
      refine ⟨_, rfl, rfl, ?_, ?_, ?_, rfl⟩
      · simpa using hblock₁
      · rw [hnext₁, hnext]
      · simp [Store.alloc]
  | true =>
      cases hadd : luck.eventAdd with
      | true =>
          obtain ⟨events, hmod, hev⟩ :=
            alloc_modify b.events ⟨what, i, none⟩ (eventAdd tv)
          simp only [Bool.true_eq_false, if_false, if_true, hmod]
          refine ⟨_, rfl, rfl, ?_, ?_, ?_, rfl⟩
          · simpa using hblock₁
          · exact hnext₁.trans hnext
          · simpa using hev
      | false =>
          obtain ⟨events, hevents, hev, -⟩ := alloc_free b.events ⟨what, i, none⟩
          obtain ⟨datas₂, hdatas, hblock₂, hnext₂⟩ := put_live (s := datas₁) (a := b.datas.next)
            (b := ⟨some b.events.next⟩) (o := none) (by rw [hblock₁, Function.update_self])
          have hdatas : datas₁.free b.datas.next = some datas₂ := hdatas
          simp only [Bool.true_eq_false, Bool.false_eq_true, if_false, hevents, Option.bind_some, hdatas]
          refine ⟨_, rfl, rfl, ?_, ?_, ?_, rfl⟩
          · rw [hblock₂, hblock₁, Function.update_idem]
            rfl
          · exact hnext₂.trans (hnext₁.trans hnext)
          · rw [hev, ← b.events.fresh b.events.next (Nat.le_refl _)]
            exact (Function.update_eq_self ..).symm

theorem dbusToEvent_cases (flags : BitVec 32) : dbusToEvent flags = 0 ∨
    dbusToEvent flags = evRead ∨ dbusToEvent flags = evWrite ∨
    dbusToEvent flags = evRead ||| evWrite := by
  rw [dbusToEvent]
  split_ifs <;> simp

theorem add_waits (kind : Kind) : eventAdd kind.timeval ⟨kind.what, i, none⟩ =
    ⟨kind.what, i, if kind.waits then some kind.timeval else none⟩ := by
  cases kind with
  | timeout ms => rfl
  | watch flags =>
      have hwaits : (evPersist ||| dbusToEvent flags) &&& (evRead ||| evWrite ||| evSignal) ≠ 0 ↔
          dbusToEvent flags ≠ 0 := by
        obtain he | he | he | he := dbusToEvent_cases flags <;> rw [he] <;> decide
      simp only [eventAdd, Kind.timeval, Kind.what, Kind.waits, Option.isSome_none,
        Bool.false_eq_true, false_or, hwaits, decide_eq_true_eq]
      split_ifs <;> rfl

theorem pending_waits (kind : Kind) (hwaits : kind.waits = true) :
    eventPending ⟨kind.what, i, some kind.timeval⟩ kind.mask = true := by
  cases kind with
  | timeout ms =>
      rw [eventPending, Bool.or_eq_true]
      have hmask : evTimeout &&& evTimeout ≠ 0 := by decide
      exact Or.inr (Bool.and_eq_true_iff.mpr ⟨decide_eq_true hmask, rfl⟩)
  | watch flags =>
      have hmask : dbusToEvent flags ≠ 0 →
          dbusToEvent flags &&& ((evPersist ||| dbusToEvent flags) &&&
            (evRead ||| evWrite ||| evSignal)) ≠ 0 := by
        obtain he | he | he | he := dbusToEvent_cases flags <;> rw [he] <;> decide
      rw [eventPending, Bool.or_eq_true]
      exact Or.inl (decide_eq_true (hmask (by simpa [Kind.waits] using hwaits)))

theorem disarmed :
    (if eventPending ⟨h.kind.what, i, h.wanted r⟩ h.kind.mask then
      eventDel ⟨h.kind.what, i, h.wanted r⟩ else ⟨h.kind.what, i, h.wanted r⟩) =
      ⟨h.kind.what, i, none⟩ := by
  rw [Handle.wanted]
  by_cases hw : (h.enabled && !r && h.kind.waits) = true
  · have hwaits : h.kind.waits = true := (Bool.and_eq_true_iff.mp hw).2
    rw [if_pos hw, pending_waits h.kind hwaits]
    rfl
  · rw [if_neg hw]
    rfl

theorem rearm_wanted (enabled ok : Bool)
    (he : b.events.block e = some ⟨h.kind.what, i, h.wanted r⟩) :
    ∃ events, rearm e h.kind.mask h.kind.timeval enabled ok b = some { b with events := events } ∧
      events.block = Function.update b.events.block e (some ⟨h.kind.what, i,
        ({ h with enabled := enabled } : Handle).wanted (enabled && !ok)⟩) := by
  obtain ⟨events, hmod, hblock, -⟩ := modify_live (f := fun ev =>
    let ev := if eventPending ev h.kind.mask then eventDel ev else ev
    if enabled && ok then eventAdd h.kind.timeval ev else ev) he
  refine ⟨events, ?_, ?_⟩
  · rw [rearm, hmod]
    rfl
  · rw [hblock]
    refine congrArg (fun ev => Function.update b.events.block e (some ev)) ?_
    dsimp only
    rw [disarmed, add_waits, Handle.wanted]
    cases enabled <;> cases ok <;> simp

theorem toggle_joined (ok : Bool) (hd : h.data = some d) (hdata : b.datas.block d = some ⟨some e⟩) :
    toggleFunction h ok b = rearm e h.kind.mask h.kind.timeval h.enabled ok b := by
  rw [toggleFunction]
  cases hkind : h.kind with
  | watch flags =>
      simp only [toggleWatch, hd, hdata, Option.bind_some, Kind.mask, Kind.timeval]
  | timeout ms =>
      simp only [toggleTimeout, hd, hdata, Option.bind_some, Kind.mask, Kind.timeval]

theorem remove_joined {ev : Event} (hd : h.data = some d)
    (hdata : b.datas.block d = some ⟨some e⟩) (he : b.events.block e = some ev) :
    ∃ events, removeFunction h b = some { b with events := events } ∧
      events.block = Function.update b.events.block e none := by
  obtain ⟨events, hmod, hblock, -⟩ := modify_live (f := eventDel) he
  obtain ⟨events', hfree, hblock', -⟩ := put_live (s := events) (a := e) (b := eventDel ev) (o := none)
    (by rw [hblock, Function.update_self])
  have hfree : events.free e = some events' := hfree
  refine ⟨events', ?_, ?_⟩
  · simp only [removeFunction, hd, hdata, Option.bind_some, hmod, hfree, Option.map_some]
  · rw [hblock', hblock, Function.update_idem]

theorem addFunction_eq (kind : Kind) :
    addFunction kind = addHandle kind.what kind.timeval := by
  cases kind <;> rfl

theorem added_event : (if h.enabled then eventAdd h.kind.timeval ⟨h.kind.what, i, none⟩ else
    ⟨h.kind.what, i, none⟩) = ⟨h.kind.what, i, h.wanted false⟩ := by
  rw [add_waits, Handle.wanted]
  cases h.enabled <;> simp

theorem and_ne_zero {w : Nat} {x m r : BitVec w} (hsub : x &&& m = x) (hx : x &&& r ≠ 0) :
    m &&& r ≠ 0 := by
  intro hm
  apply hx
  rw [← hsub, BitVec.and_assoc, hm]
  exact BitVec.and_zero

theorem twoPow_and {w n : Nat} {x : BitVec w} (hx : x &&& BitVec.twoPow w n ≠ 0) :
    BitVec.twoPow w n &&& x = BitVec.twoPow w n := by
  rw [BitVec.and_comm, BitVec.and_twoPow]
  rw [BitVec.and_twoPow] at hx
  split_ifs at hx ⊢
  · rfl
  · exact absurd rfl hx

theorem told_flags {flags : BitVec 32} (hne : what ≠ 0)
    (hsub : what &&& ((evPersist ||| dbusToEvent flags) &&& ~~~evPersist) = what) :
    eventToDbus what ≠ 0 ∧ eventToDbus what &&& flags = eventToDbus what := by
  have hread : what &&& evRead ≠ 0 → flags &&& dbusWatchReadable ≠ 0 := by
    intro hwhat hflags
    have hm := and_ne_zero hsub hwhat
    rw [dbusToEvent, if_neg (not_not.mpr hflags)] at hm
    split_ifs at hm <;> exact absurd rfl hm
  have hwrite : what &&& evWrite ≠ 0 → flags &&& dbusWatchWritable ≠ 0 := by
    intro hwhat hflags
    have hm := and_ne_zero hsub hwhat
    rw [dbusToEvent, if_neg (not_not.mpr hflags)] at hm
    split_ifs at hm <;> exact absurd rfl hm
  have hboth : what &&& evRead ≠ 0 ∨ what &&& evWrite ≠ 0 := by
    by_contra hnone
    obtain ⟨hr, hw⟩ := not_or.mp hnone
    rw [not_not] at hr hw
    apply hne
    rw [← hsub]
    obtain he | he | he | he := dbusToEvent_cases flags <;> rw [he]
    · exact BitVec.and_zero
    · exact hr
    · exact hw
    · have hmask : (evPersist ||| (evRead ||| evWrite)) &&& ~~~evPersist = evRead ||| evWrite := by
        decide
      rw [hmask, BitVec.and_or_distrib_left, hr, hw]
      rfl
  have hr : what &&& evRead ≠ 0 → dbusWatchReadable &&& flags = dbusWatchReadable :=
    fun hwhat => twoPow_and (n := 0) (hread hwhat)
  have hw : what &&& evWrite ≠ 0 → dbusWatchWritable &&& flags = dbusWatchWritable :=
    fun hwhat => twoPow_and (n := 1) (hwrite hwhat)
  have hzero : (0 : BitVec 32) &&& flags = 0 := BitVec.zero_and
  rw [eventToDbus, BitVec.and_or_distrib_right]
  split_ifs with h₁ h₂ h₂
  · rw [hr h₁, hw h₂]
    exact ⟨by decide, rfl⟩
  · rw [hr h₁, hzero]
    exact ⟨by decide, rfl⟩
  · rw [hw h₂, hzero]
    exact ⟨by decide, rfl⟩
  · exact absurd hboth (not_or.mpr ⟨h₁, h₂⟩)

theorem wanted_some (hw : h.wanted r = some tv) : h.enabled = true ∧ tv = h.kind.timeval := by
  rw [Handle.wanted] at hw
  split_ifs at hw with hb
  simp only [Bool.and_eq_true] at hb
  exact ⟨hb.1.1, (Option.some.inj hw).symm⟩

end Tlsdate.BusWatches
