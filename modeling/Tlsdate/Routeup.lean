import Tlsdate.AlignedRecords
import Tlsdate.EventLoop

namespace Tlsdate.Routeup

open HostBytes AlignedRecords DaemonState Kickoff EventLoop

inductive Errno
  | eagain
  | other
  deriving DecidableEq, Repr

/-- The datagrams that the reads of the netlink socket get, in their order, and how
the read after them fails. -/
structure Socket where
  queue : List (List UInt8)
  failure : Errno
  errno : Errno
  deriving DecidableEq, Repr

/-- `read` into a buffer: of a datagram that does not fit, the rest is lost. Only a
read that fails sets `errno`. -/
def Socket.read (sock : Socket) (size : Nat) : Option (List UInt8) × Socket :=
  match sock.queue with
  | [] => (none, { sock with errno := sock.failure })
  | datagram :: queue => (some (datagram.take size), { sock with queue := queue })

theorem Socket.read_shorter {sock sock' : Socket} {size : Nat} {bytes : List UInt8}
    (h : sock.read size = (some bytes, sock')) : sock'.queue.length < sock.queue.length := by
  rw [Socket.read] at h
  split at h
  next => cases h
  next hqueue =>
    obtain ⟨-, rfl⟩ := Prod.mk.inj h
    rw [hqueue]
    exact Nat.lt_succ_self _

def bufSize : Nat := 4096

def drain (sock : Socket) : Socket :=
  match _ : sock.read bufSize with
  | (some (_ :: _), sock') => drain sock'
  | (some [], sock') | (none, sock') => sock'
termination_by sock.queue.length
decreasing_by exact Socket.read_shorter ‹_›

structure Nlmsghdr where
  nlmsgLen : Nat
  nlmsgType : Nat

def nlmsghdrSize : Nat := 16

def nlmsgDone : Nat := 3

def rtmNewroute : Nat := 24

def nlmsgAlign (len : Nat) : Nat := (len + 3) / 4 * 4

/-- The header at `nh`, if all of it is among the bytes received. -/
def nlmsghdr (order : ByteOrder) (buf : List UInt8) (nh : Nat) : Option Nlmsghdr :=
  if nh + nlmsghdrSize ≤ buf.length then
    some ⟨decode order ((buf.drop nh).take 4), decode order (((buf.drop nh).drop 4).take 2)⟩
  else none

/-- The loop over the messages of a datagram: whether it meets an RTM_NEWROUTE, or
`none` where it reads a header that is not among the bytes received. `sz` is the signed
count that `NLMSG_NEXT` lowers. -/
def newroute (order : ByteOrder) (buf : List UInt8) (nh : Nat) (sz : Int) : Option Bool :=
  if sz < nlmsghdrSize then some false
  else
    match nlmsghdr order buf nh with
    | none => none
    | some hdr =>
        if nlmsghdrSize ≤ hdr.nlmsgLen ∧ hdr.nlmsgLen ≤ sz then
          if hdr.nlmsgType = nlmsgDone then some false
          else if hdr.nlmsgType ≠ rtmNewroute then
            newroute order buf (nh + nlmsgAlign hdr.nlmsgLen) (sz - nlmsgAlign hdr.nlmsgLen)
          else some true
        else some false
termination_by sz.toNat
decreasing_by
  simp only [nlmsghdrSize, nlmsgAlign] at *
  omega

/-- `routeup_process`, with `none` for the result where a header is read that is not
among the bytes received. -/
def routeupProcess (order : ByteOrder) (sock : Socket) : Option Int × Socket :=
  match sock.read bufSize with
  | (none, sock) => (some (-1), sock)
  | (some buf, sock) =>
      match newroute order buf 0 buf.length with
      | none => (none, sock)
      | some false => (some 1, sock)
      | some true => (some (if (drain sock).errno ≠ .eagain then -1 else 0), drain sock)

/-- `action_netlink_ready`, called for a read event. -/
def actionNetlinkReady (order : ByteOrder) (r : Readings) (sock : Socket) (s : State) :
    Option State × Socket :=
  match routeupProcess order sock with
  | (none, sock) => (none, sock)
  | (some result, sock) => (some (if result = 0 then actionKickoffTimeSync r s else s), sock)

def messages (order : ByteOrder) : Layout UInt8 where
  header := nlmsghdrSize
  align := 4
  size := fun s => decode order (s.take 4)
  header_pos := by decide
  align_pos := by decide

def messageType (order : ByteOrder) (message : List UInt8) : Nat :=
  decode order ((message.drop 4).take 2)

/-- An RTM_NEWROUTE is among the well formed messages before the first NLMSG_DONE. -/
def ReportsRoute (order : ByteOrder) (datagram : List UInt8) : Prop :=
  ∃ message ∈ (records (messages order) datagram).takeWhile (messageType order · != nlmsgDone),
    messageType order message = rtmNewroute

instance (order : ByteOrder) (datagram : List UInt8) : Decidable (ReportsRoute order datagram) :=
  inferInstanceAs (Decidable (∃ message ∈ _, _))

variable {order : ByteOrder} {s buf : List UInt8}

theorem messageType_take {n : Nat} (h : nlmsghdrSize ≤ n) :
    messageType order (s.take n) = messageType order s := by
  have hmin : min 2 (n - 4) = 2 := by
    simp only [nlmsghdrSize] at h
    omega
  rw [messageType, messageType, List.drop_take, List.take_take, hmin]

theorem nlmsgAlign_eq (len : Nat) : (messages order).roundUp len = nlmsgAlign len := rfl

theorem reportsRoute_malformed (h : ¬ (messages order).WellFormed s) : ¬ ReportsRoute order s := by
  rw [ReportsRoute, records_malformed h]
  rintro ⟨message, hmem, -⟩
  cases hmem

theorem reportsRoute_wellFormed (h : (messages order).WellFormed s) :
    ReportsRoute order s ↔ messageType order s ≠ nlmsgDone ∧
      (messageType order s = rtmNewroute ∨
        ReportsRoute order (s.drop (nlmsgAlign (decode order (s.take 4))))) := by
  have htype : messageType order (s.take ((messages order).size s)) = messageType order s :=
    messageType_take h.2.1
  rw [ReportsRoute, records_wellFormed h, List.takeWhile_cons, htype, nlmsgAlign_eq]
  by_cases hdone : messageType order s = nlmsgDone
  · simp [hdone]
  · rw [if_pos (bne_iff_ne.mpr hdone), List.exists_mem_cons_iff, htype]
    exact (and_iff_right hdone).symm

theorem wellFormed_drop {nh : Nat} {sz : Int} (hsz : sz = buf.length - nh) :
    (messages order).WellFormed (buf.drop nh) ↔ (nlmsghdrSize : Int) ≤ sz ∧
      nlmsghdrSize ≤ (messages order).size (buf.drop nh) ∧
      ((messages order).size (buf.drop nh) : Int) ≤ sz := by
  have hheader : (messages order).header = nlmsghdrSize := rfl
  have hsize : nlmsghdrSize = 16 := rfl
  rw [Layout.WellFormed, List.length_drop, hheader]
  omega

theorem nlmsghdr_eq {nh : Nat} {sz : Int} (hsz : sz = buf.length - nh) (hroom : ¬ sz < nlmsghdrSize) :
    nlmsghdr order buf nh =
      some ⟨(messages order).size (buf.drop nh), messageType order (buf.drop nh)⟩ :=
  if_pos (by omega)

theorem nlmsghdr_some {nh : Nat} {sz : Int} {hdr : Nlmsghdr} (hsz : sz = buf.length - nh)
    (hroom : ¬ sz < nlmsghdrSize) (hhdr : nlmsghdr order buf nh = some hdr) :
    hdr = ⟨(messages order).size (buf.drop nh), messageType order (buf.drop nh)⟩ :=
  Option.some.inj (hhdr.symm.trans (nlmsghdr_eq hsz hroom))

/-- Every header that the loop reads is among the bytes received, and it finds what the
messages from there on report. -/
theorem newroute_eq {nh : Nat} {sz : Int} (hsz : sz = buf.length - nh) :
    newroute order buf nh sz = some (decide (ReportsRoute order (buf.drop nh))) := by
  induction nh, sz using newroute.induct order buf with
  | case1 nh sz hshort =>
      have hnone : ¬ ReportsRoute order (buf.drop nh) :=
        reportsRoute_malformed fun h => Int.not_le.mpr hshort ((wellFormed_drop hsz).mp h).1
      rw [newroute, if_pos hshort, decide_eq_false hnone]
  | case2 nh sz hroom hhdr =>
      rw [nlmsghdr_eq hsz hroom] at hhdr
      cases hhdr
  | case3 nh sz hroom hdr hhdr hfits hdone =>
      rw [newroute, if_neg hroom, hhdr]
      obtain rfl := nlmsghdr_some hsz hroom hhdr
      have hwell := (wellFormed_drop hsz).mpr ⟨Int.not_lt.mp hroom, hfits⟩
      have hnone : ¬ ReportsRoute order (buf.drop nh) :=
        fun h => ((reportsRoute_wellFormed hwell).mp h).1 hdone
      dsimp only
      rw [if_pos hfits, if_pos hdone, decide_eq_false hnone]
  | case4 nh sz hroom hdr hhdr hfits hdone hother ih =>
      rw [newroute, if_neg hroom, hhdr]
      obtain rfl := nlmsghdr_some hsz hroom hhdr
      have hwell := (wellFormed_drop hsz).mpr ⟨Int.not_lt.mp hroom, hfits⟩
      have hrest := reportsRoute_wellFormed hwell
      rw [and_iff_right hdone, or_iff_right hother, List.drop_drop] at hrest
      dsimp only
      rw [if_pos hfits, if_neg hdone, if_pos hother, ih (by omega)]
      exact congrArg some (decide_eq_decide.mpr hrest.symm)
  | case5 nh sz hroom hdr hhdr hfits hdone hroute =>
      rw [newroute, if_neg hroom, hhdr]
      obtain rfl := nlmsghdr_some hsz hroom hhdr
      have hwell := (wellFormed_drop hsz).mpr ⟨Int.not_lt.mp hroom, hfits⟩
      have hreports := (reportsRoute_wellFormed hwell).mpr ⟨hdone, Or.inl (not_not.mp hroute)⟩
      dsimp only
      rw [if_pos hfits, if_neg hdone, if_neg hroute, decide_eq_true hreports]
  | case6 nh sz hroom hdr hhdr hmalformed =>
      rw [newroute, if_neg hroom, hhdr]
      obtain rfl := nlmsghdr_some hsz hroom hhdr
      have hnone : ¬ ReportsRoute order (buf.drop nh) :=
        reportsRoute_malformed fun h => hmalformed ((wellFormed_drop hsz).mp h).2
      dsimp only
      rw [if_neg hmalformed, decide_eq_false hnone]

theorem routeupProcess_eq (order : ByteOrder) (datagram : List UInt8) (queue : List (List UInt8))
    (failure errno : Errno) :
    routeupProcess order ⟨datagram :: queue, failure, errno⟩ =
      if ReportsRoute order (datagram.take bufSize) then
        (some (if (drain ⟨queue, failure, errno⟩).errno ≠ .eagain then -1 else 0),
          drain ⟨queue, failure, errno⟩)
      else (some 1, ⟨queue, failure, errno⟩) := by
  have hloop := @newroute_eq order (datagram.take bufSize) 0 (datagram.take bufSize).length (by simp)
  rw [List.drop_zero] at hloop
  rw [routeupProcess, Socket.read]
  dsimp only
  rw [hloop]
  by_cases hreports : ReportsRoute order (datagram.take bufSize)
  · rw [decide_eq_true hreports, if_pos hreports]
  · rw [decide_eq_false hreports, if_neg hreports]

/-- For a datagram that the buffer holds: headers are read among its bytes only, the
result is 0 exactly if it reports a route, where the socket is then drained up to
EAGAIN, and 1 if it reports none. -/
theorem routeupProcess_reports (order : ByteOrder) {datagram : List UInt8}
    (hsize : datagram.length ≤ bufSize) (queue : List (List UInt8)) (failure errno : Errno) :
    ∃ result, (routeupProcess order ⟨datagram :: queue, failure, errno⟩).1 = some result ∧
      ((drain ⟨queue, failure, errno⟩).errno = .eagain →
        (result = 0 ↔ ReportsRoute order datagram)) ∧
      (¬ ReportsRoute order datagram → result = 1) := by
  rw [routeupProcess_eq, List.take_of_length_le hsize]
  by_cases hreports : ReportsRoute order datagram
  · rw [if_pos hreports]
    refine ⟨_, rfl, fun hdrain => ?_, fun h => absurd hreports h⟩
    rw [hdrain]
    exact iff_of_true rfl hreports
  · rw [if_neg hreports]
    exact ⟨1, rfl, fun _ => iff_of_false (by decide) hreports, fun _ => rfl⟩

def sampleDatagram : List UInt8 :=
  [17, 0, 0, 0, 25, 0] ++ List.replicate 14 0 ++ [16, 0, 0, 0, 24, 0] ++ List.replicate 10 0

theorem sampleDatagram_reports :
    ∃ result, (routeupProcess .little ⟨[sampleDatagram], .eagain, .eagain⟩).1 = some result ∧
      ((drain ⟨[], .eagain, .eagain⟩).errno = .eagain →
        (result = 0 ↔ ReportsRoute .little sampleDatagram)) ∧
      (¬ ReportsRoute .little sampleDatagram → result = 1) :=
  routeupProcess_reports .little (by decide) [] .eagain .eagain

example : (routeupProcess .little ⟨[sampleDatagram, [0]], .eagain, .other⟩).1 = some 0 := by
  decide +kernel

/-- The event loop is told of a route exactly if the datagram reports one and the drain
ends with EAGAIN. -/
theorem actionNetlinkReady_routeUp (order : ByteOrder) (r : Readings) (datagram : List UInt8)
    (queue : List (List UInt8)) (failure errno : Errno) (s : State) :
    (actionNetlinkReady order r ⟨datagram :: queue, failure, errno⟩ s).1 =
      some (actionRouteUp r (.netlink (ReportsRoute order (datagram.take bufSize) ∧
        (drain ⟨queue, failure, errno⟩).errno = .eagain)) s) := by
  rw [actionNetlinkReady, routeupProcess_eq]
  by_cases hreports : ReportsRoute order (datagram.take bufSize)
  · rw [if_pos hreports]
    by_cases hdrain : (drain ⟨queue, failure, errno⟩).errno = .eagain
    · simp [hreports, hdrain, actionRouteUp]
    · simp [hreports, hdrain, actionRouteUp]
  · simp [hreports, actionRouteUp]

end Tlsdate.Routeup
