import PubSub.Lib.Handles
import PubSub.Cxx.String
import Mathlib.Data.Finset.Lattice.Fold
import Mathlib.Order.Lattice.Nat

/-!
# Connecting to the server

`Socket::sock_connect` goes through the list that `getaddrinfo` gives it and tries `socket` and
`connect` on one entry after the other, until both succeed.  What the system answers for an entry is
part of the list here, so that the lists are all patterns of success and failure; which number a new
descriptor gets is up to the system as well, as long as it is not in use.

* `sockConnect_iff` — no descriptor is leaked exactly when `connect` fails on no entry before the
  first that connects.
* `card_sockDisconnect` — how many are leaked otherwise.
-/

set_option autoImplicit false

namespace PubSub

open Cxx

/-! ## System calls -/

/-- A system call that was made, with what it returned. -/
inductive Syscall where
  /-- `socket(ai_family, ai_socktype, ai_protocol)`. -/
  | socket (family socktype protocol : ℤ) (ret : ℤ)
  /-- `connect(socket_fd, ai_addr, ai_addrlen)`. -/
  | connect (fd : ℤ) (addr : Bytes) (ret : ℤ)
  /-- `close(sfd)`. -/
  | close (fd : ℤ)
deriving DecidableEq

/-- The descriptor that a call opens or closes. -/
def Syscall.handle : Syscall → Option (Handles.Event ℕ)
  | .socket _ _ _ ret => if 0 ≤ ret then some (.opened ret.toNat) else none
  | .connect _ _ _ => none
  | .close fd => if 0 ≤ fd then some (.closed fd.toNat) else none

/-- The descriptors that are open after some calls. -/
def openAfter (init : Finset ℕ) (calls : List Syscall) : Finset ℕ :=
  Handles.live init (calls.filterMap Syscall.handle)

/-- The system, as far as descriptors go. -/
structure Os where
  /-- The descriptors that are open at first. -/
  init : Finset ℕ
  /-- The descriptor that `socket` gives when it succeeds, after the calls made before. -/
  descriptor : List Syscall → ℕ
  /-- The descriptor that `socket` gives is not in use. -/
  fresh : ∀ calls, descriptor calls ∉ openAfter init calls

/-! ## `class Socket` -/

/-- What `socket` and `connect` do for an entry. -/
inductive Answer where
  /-- `socket` fails. -/
  | noSocket
  /-- `socket` succeeds and `connect` fails. -/
  | refused
  /-- `socket` and `connect` succeed. -/
  | connected
deriving DecidableEq

/-- `struct addrinfo`, with what the system answers. -/
structure AddrInfo where
  /-- `ai_family`. -/
  family : ℤ
  /-- `ai_socktype`. -/
  socktype : ℤ
  /-- `ai_protocol`. -/
  protocol : ℤ
  /-- `ai_addr`, which is `ai_addrlen` bytes long. -/
  addr : Bytes
  /-- What happens when `sock_connect` tries the entry. -/
  answer : Answer
deriving DecidableEq

/-- `class Socket`. -/
structure Socket where
  /-- The descriptor, or a negative number. -/
  sfd : ℤ := -1

/-- The loop of `sock_connect` from `rp` on, with the calls made before: the value of `socket_fd`
behind it, and the calls that it makes. -/
def connectLoop (os : Os) : List AddrInfo → ℤ → List Syscall → ℤ × List Syscall
  | [], socketFd, _ => (socketFd, [])
  | rp :: rest, socketFd, calls =>
    if socketFd < 0 then
      let socketFd := if rp.answer = .noSocket then -1 else (os.descriptor calls : ℤ)
      let socket := .socket rp.family rp.socktype rp.protocol socketFd
      if socketFd < 0 then
        let r := connectLoop os rest socketFd (calls ++ [socket])
        (r.1, socket :: r.2)
      else
        let status := if rp.answer = .connected then 0 else -1
        let connect := .connect socketFd rp.addr status
        -- the descriptor of a failed connection is forgotten, not closed
        let socketFd := if status < 0 then -1 else socketFd
        let r := connectLoop os rest socketFd (calls ++ [socket, connect])
        (r.1, socket :: connect :: r.2)
    else (socketFd, [])

/-- What a member of `Socket` returns, what it leaves, and the calls that it makes. -/
structure SockResult where
  /-- The returned value. -/
  ret : ℤ
  /-- The object. -/
  sock : Socket
  /-- The system calls. -/
  calls : List Syscall

/-- `Socket::sock_connect`, with what `getaddrinfo` gives. -/
def sockConnect (os : Os) (results : Except ℤ (List AddrInfo)) (s : Socket) (calls : List Syscall) :
    SockResult :=
  match results with
  | .error _ => ⟨-1, s, []⟩
  | .ok results =>
    let r := connectLoop os results (-1) calls
    ⟨r.1, ⟨r.1⟩, r.2⟩

/-- `Socket::sock_disconnect`, with the calls that it makes. -/
def sockDisconnect (s : Socket) : Socket × List Syscall :=
  if 0 ≤ s.sfd then (⟨-1⟩, [.close s.sfd]) else (s, [])

/-! ## What the loop does with one entry -/

/-- The call of `socket` for an entry. -/
def AddrInfo.socketCall (rp : AddrInfo) (ret : ℤ) : Syscall :=
  .socket rp.family rp.socktype rp.protocol ret

/-- The calls for an entry to which `connect` fails. -/
def AddrInfo.refusedCalls (rp : AddrInfo) (fd : ℤ) : List Syscall :=
  [rp.socketCall fd, .connect fd rp.addr (-1)]

/-- The calls for an entry that connects. -/
def AddrInfo.connectedCalls (rp : AddrInfo) (fd : ℤ) : List Syscall :=
  [rp.socketCall fd, .connect fd rp.addr 0]

/-- How `sock_connect` works off a list, given the calls made before: what it returns and the calls
that it makes. -/
inductive Tries (os : Os) : List Syscall → List AddrInfo → ℤ → List Syscall → Prop
  | exhausted {calls : List Syscall} : Tries os calls [] (-1) []
  | noSocket {calls made : List Syscall} {rp : AddrInfo} {results : List AddrInfo} {ret : ℤ}
      (h : rp.answer = .noSocket)
      (next : Tries os (calls ++ [rp.socketCall (-1)]) results ret made) :
      Tries os calls (rp :: results) ret ([rp.socketCall (-1)] ++ made)
  | refused {calls made : List Syscall} {rp : AddrInfo} {results : List AddrInfo} {ret : ℤ}
      (h : rp.answer = .refused)
      (next : Tries os (calls ++ rp.refusedCalls (os.descriptor calls)) results ret made) :
      Tries os calls (rp :: results) ret (rp.refusedCalls (os.descriptor calls) ++ made)
  | connected {calls : List Syscall} {rp : AddrInfo} {results : List AddrInfo}
      (h : rp.answer = .connected) :
      Tries os calls (rp :: results) (os.descriptor calls)
        (rp.connectedCalls (os.descriptor calls))

variable {os : Os} {rp : AddrInfo} {results : List AddrInfo} {calls made : List Syscall} {ret : ℤ}

theorem connectLoop_of_nonneg {fd : ℤ} (h : 0 ≤ fd) :
    connectLoop os results fd calls = (fd, []) := by
  cases results with
  | nil => rfl
  | cons rp rest => rw [connectLoop, if_neg (not_lt.mpr h)]

/-- **The loop works off its list.** -/
theorem tries_connectLoop (os : Os) (results : List AddrInfo) (calls : List Syscall) :
    Tries os calls results (connectLoop os results (-1) calls).1
      (connectLoop os results (-1) calls).2 := by
  induction results generalizing calls with
  | nil => exact .exhausted
  | cons rp results ih =>
    have hfd : ¬ (os.descriptor calls : ℤ) < 0 := not_lt.mpr (Int.natCast_nonneg _)
    cases h : rp.answer with
    | noSocket =>
      have hnext := Tries.noSocket h (ih (calls ++ [rp.socketCall (-1)]))
      simpa [connectLoop, h, AddrInfo.socketCall] using hnext
    | refused =>
      have hnext := Tries.refused h (ih (calls ++ rp.refusedCalls (os.descriptor calls)))
      simpa [connectLoop, h, hfd, AddrInfo.refusedCalls, AddrInfo.socketCall] using hnext
    | connected =>
      have hlast : Tries os calls (rp :: results) _ _ := Tries.connected h
      simpa [connectLoop, h, hfd, AddrInfo.connectedCalls, AddrInfo.socketCall,
        connectLoop_of_nonneg (Int.natCast_nonneg _)] using hlast

/-! ## What is to be tried -/

/-- `socket` and `connect` succeed for an entry. -/
def AddrInfo.connects (rp : AddrInfo) : Bool := rp.answer = .connected

/-- The entries up to the first that connects. -/
def tried (results : List AddrInfo) : List AddrInfo :=
  results.takeWhile (!·.connects) ++ (results.find? AddrInfo.connects).toList

/-- How many entries in front of the first that connects get a socket. -/
def refusals (results : List AddrInfo) : ℕ :=
  (results.takeWhile (!·.connects)).countP (·.answer = .refused)

/-- The arguments of a call of `socket`. -/
def Syscall.socketArgs : Syscall → Option (ℤ × ℤ × ℤ)
  | .socket family socktype protocol _ => some (family, socktype, protocol)
  | _ => none

/-- The address in a call of `connect`. -/
def Syscall.connectAddr : Syscall → Option Bytes
  | .connect _ addr _ => some addr
  | _ => none

/-- The descriptor that a returned value stands for. -/
def descriptors (ret : ℤ) : Finset ℕ := if 0 ≤ ret then {ret.toNat} else ∅

@[simp] theorem descriptors_natCast (fd : ℕ) : descriptors fd = {fd} := by
  simp [descriptors]

theorem tried_connected (h : rp.answer = .connected) (results : List AddrInfo) :
    tried (rp :: results) = [rp] := by
  simp [tried, AddrInfo.connects, h]

theorem tried_of_ne (h : rp.answer ≠ .connected) (results : List AddrInfo) :
    tried (rp :: results) = rp :: tried results := by
  simp [tried, AddrInfo.connects, h]

theorem refusals_connected (h : rp.answer = .connected) (results : List AddrInfo) :
    refusals (rp :: results) = 0 := by
  simp [refusals, AddrInfo.connects, h]

theorem refusals_refused (h : rp.answer = .refused) (results : List AddrInfo) :
    refusals (rp :: results) = refusals results + 1 := by
  simp [refusals, AddrInfo.connects, h]

theorem refusals_noSocket (h : rp.answer = .noSocket) (results : List AddrInfo) :
    refusals (rp :: results) = refusals results := by
  simp [refusals, AddrInfo.connects, h]

theorem refusals_eq_zero_iff :
    refusals results = 0 ↔ ∀ rp ∈ results.takeWhile (!·.connects), rp.answer = .noSocket := by
  rw [refusals, List.countP_eq_zero]
  refine forall₂_congr fun rp hrp ↦ ?_
  have hne : rp.answer ≠ .connected := by
    simpa [AddrInfo.connects] using List.mem_takeWhile_imp hrp
  cases h : rp.answer with
  | noSocket | refused => simp
  | connected => exact absurd h hne

namespace Tries

/-! ## What is called -/

/-- `socket` is called for the entries up to the first that connects. -/
theorem socketArgs (h : Tries os calls results ret made) : made.filterMap Syscall.socketArgs
    = (tried results).map fun rp ↦ (rp.family, rp.socktype, rp.protocol) := by
  induction h with
  | exhausted => rfl
  | noSocket h next ih | refused h next ih =>
    rw [tried_of_ne (by simp [h]), List.filterMap_append, ih]
    rfl
  | connected h =>
    rw [tried_connected h]
    rfl

/-- `connect` is called for the entries tried that get a socket. -/
theorem connectAddr (h : Tries os calls results ret made) : made.filterMap Syscall.connectAddr
    = ((tried results).filter (·.answer ≠ .noSocket)).map AddrInfo.addr := by
  induction h with
  | exhausted => rfl
  | noSocket h next ih =>
    rw [tried_of_ne (by simp [h]), List.filterMap_append, ih,
      List.filter_cons_of_neg (by simp [h])]
    rfl
  | refused h next ih =>
    rw [tried_of_ne (by simp [h]), List.filterMap_append, ih,
      List.filter_cons_of_pos (by simp [h])]
    rfl
  | connected h =>
    rw [tried_connected h, List.filter_cons_of_pos (by simp [h])]
    rfl

/-- The last calls are those for the first entry that connects. -/
theorem found {found : AddrInfo} (h : Tries os calls results ret made)
    (hfound : results.find? AddrInfo.connects = some found) :
    ∃ (earlier : List Syscall) (fd : ℕ), made = earlier ++ found.connectedCalls fd ∧ ret = fd := by
  induction h with
  | exhausted => cases hfound
  | noSocket h next ih | refused h next ih =>
    rw [List.find?_cons_of_neg (by simp [AddrInfo.connects, h])] at hfound
    obtain ⟨earlier, fd, rfl, rfl⟩ := ih hfound
    exact ⟨_, fd, (List.append_assoc ..).symm, rfl⟩
  | connected h =>
    rw [List.find?_cons_of_pos (by simp [AddrInfo.connects, h]), Option.some.injEq] at hfound
    subst hfound
    exact ⟨[], _, rfl, rfl⟩

theorem eq_neg_one (h : Tries os calls results ret made)
    (hnone : results.find? AddrInfo.connects = none) : ret = -1 := by
  induction h with
  | exhausted => rfl
  | noSocket h next ih | refused h next ih =>
    rw [List.find?_cons_of_neg (by simp [AddrInfo.connects, h])] at hnone
    exact ih hnone
  | connected h =>
    rw [List.find?_cons_of_pos (by simp [AddrInfo.connects, h])] at hnone
    cases hnone

/-! ## What is left open -/

theorem closings (h : Tries os calls results ret made) :
    Handles.closings (made.filterMap Syscall.handle) = 0 := by
  induction h with
  | exhausted => rfl
  | noSocket h next ih => exact ih
  | refused h next ih =>
    rw [List.filterMap_append]
    exact ih
  | connected h => rfl

/-- A descriptor is opened for each entry that is refused, and for the one that connects. -/
theorem openings (h : Tries os calls results ret made) :
    Handles.openings (made.filterMap Syscall.handle)
      = refusals results + (descriptors ret).card := by
  induction h with
  | exhausted => rfl
  | noSocket h next ih =>
    rw [refusals_noSocket h]
    exact ih
  | refused h next ih =>
    rw [refusals_refused h, Nat.add_right_comm, ← ih]
    rfl
  | connected h =>
    rw [refusals_connected h, descriptors_natCast]
    rfl

end Tries

theorem openAfter_append (init : Finset ℕ) (calls made : List Syscall) :
    openAfter init (calls ++ made)
      = Handles.live (openAfter init calls) (made.filterMap Syscall.handle) := by
  rw [openAfter, List.filterMap_append, Handles.live_append]
  rfl

theorem Tries.proper (h : Tries os calls results ret made) :
    Handles.Proper (openAfter os.init calls) (made.filterMap Syscall.handle) := by
  induction h with
  | exhausted => trivial
  | noSocket h next ih =>
    rw [openAfter_append] at ih
    exact ih
  | refused h next ih =>
    rw [openAfter_append] at ih
    exact ⟨os.fresh _, ih⟩
  | connected h => exact ⟨os.fresh _, trivial⟩

/-- What is returned was not open before, and is open now. -/
theorem Tries.returned (h : Tries os calls results ret made) :
    Disjoint (openAfter os.init calls) (descriptors ret) ∧
      descriptors ret ⊆ openAfter os.init (calls ++ made) := by
  induction h with
  | exhausted => exact ⟨Finset.disjoint_empty_right _, Finset.empty_subset _⟩
  | @noSocket calls made rp results ret h next ih =>
    rw [List.append_assoc, openAfter_append] at ih
    exact ih
  | @refused calls made rp results ret h next ih =>
    have hsub : openAfter os.init calls
        ⊆ openAfter os.init (calls ++ rp.refusedCalls (os.descriptor calls)) := by
      rw [openAfter_append]
      exact Finset.subset_insert ..
    rw [List.append_assoc] at ih
    exact ⟨Finset.disjoint_of_subset_left hsub ih.1, ih.2⟩
  | @connected calls rp results h =>
    rw [descriptors_natCast, openAfter_append]
    exact ⟨Finset.disjoint_singleton_right.mpr (os.fresh calls),
      Finset.singleton_subset_iff.mpr (Finset.mem_insert_self ..)⟩

theorem Tries.card_openAfter (h : Tries os calls results ret made) :
    (openAfter os.init (calls ++ made)).card
      = (openAfter os.init calls).card + (refusals results + (descriptors ret).card) := by
  have hbalance := Handles.card_live h.proper
  rwa [h.closings, h.openings, Nat.add_zero, ← openAfter_append] at hbalance

/-- Only what is returned stays open, exactly when no connection was refused. -/
theorem Tries.openAfter_eq_iff (h : Tries os calls results ret made) :
    openAfter os.init (calls ++ made) = openAfter os.init calls ∪ descriptors ret ↔
      refusals results = 0 := by
  have hcard := h.card_openAfter
  have hunion := Finset.card_union_of_disjoint h.returned.1
  constructor
  · intro heq
    rw [heq, hunion] at hcard
    omega
  · intro hnone
    have hkept : openAfter os.init calls ⊆ openAfter os.init (calls ++ made) := by
      rw [openAfter_append]
      exact Handles.subset_live h.closings _
    refine (Finset.eq_of_subset_of_card_le (Finset.union_subset hkept h.returned.2) ?_).symm
    rw [hunion, hcard, hnone, Nat.zero_add]

/-! ## Leaks -/

/-- `sock_connect` connects to the first entry that can be connected to, and keeps no other
descriptor open. -/
structure ConnectsCleanly (os : Os) (results : List AddrInfo) (calls : List Syscall)
    (r : SockResult) : Prop where
  /-- `socket` is called for the entries up to the first that connects, and for no later one. -/
  sockets : r.calls.filterMap Syscall.socketArgs
    = (tried results).map fun rp ↦ (rp.family, rp.socktype, rp.protocol)
  /-- `connect` is called for the entries tried that get a socket. -/
  connects : r.calls.filterMap Syscall.connectAddr
    = ((tried results).filter (·.answer ≠ .noSocket)).map AddrInfo.addr
  /-- The descriptor of the first entry that connects is returned. -/
  found : ∀ rp ∈ results.find? AddrInfo.connects, ∃ (earlier : List Syscall) (fd : ℕ),
    r.calls = earlier ++ rp.connectedCalls fd ∧ r.ret = fd
  /-- If no entry connects, `-1` is returned. -/
  none : results.find? AddrInfo.connects = none → r.ret = -1
  /-- What is returned is stored. -/
  stored : r.sock.sfd = r.ret
  /-- Every other descriptor that was opened has been closed. -/
  closed : openAfter os.init (calls ++ r.calls) = openAfter os.init calls ∪ descriptors r.ret

/-- **When no descriptor is leaked.**  `sock_connect` does what it should exactly when `socket`
fails for every entry before the first that connects. -/
theorem sockConnect_iff (os : Os) (results : List AddrInfo) (s : Socket) (calls : List Syscall) :
    ConnectsCleanly os results calls (sockConnect os (.ok results) s calls) ↔
      ∀ rp ∈ results.takeWhile (!·.connects), rp.answer = .noSocket := by
  have htries := tries_connectLoop os results calls
  rw [← refusals_eq_zero_iff, ← htries.openAfter_eq_iff]
  exact ⟨ConnectsCleanly.closed, fun hclosed ↦ ⟨htries.socketArgs, htries.connectAddr,
    fun rp hrp ↦ htries.found hrp, htries.eq_neg_one, rfl, hclosed⟩⟩

/-- A system that counts on from the largest descriptor in use. -/
def Os.next (init : Finset ℕ) : Os where
  init := init
  descriptor calls := (openAfter init calls).sup id + 1
  fresh _ h := Nat.not_succ_le_self _ (Finset.le_sup (f := id) h)

/-- The local host over IPv6, at a port where nobody listens. -/
def localhost6 : AddrInfo :=
  ⟨10, 1, 6, [10, 0, 35, 41, 0, 0, 0, 0] ++ List.replicate 15 0 ++ [1, 0, 0, 0, 0], .refused⟩

/-- The local host over IPv4, at the server's port. -/
def localhost4 : AddrInfo :=
  ⟨2, 1, 6, [2, 0, 35, 41, 127, 0, 0, 1, 0, 0, 0, 0, 0, 0, 0, 0], .connected⟩

/-- The descriptor that was opened for the first of two entries stays open. -/
theorem not_connectsCleanly :
    ¬ ConnectsCleanly (.next {0, 1, 2}) [localhost6, localhost4] []
      (sockConnect (.next {0, 1, 2}) (.ok [localhost6, localhost4]) {} []) :=
  fun h ↦ absurd h.closed (by decide)

/-! ## Disconnecting -/

theorem sockDisconnect_natCast (fd : ℕ) : sockDisconnect ⟨fd⟩ = (⟨-1⟩, [.close fd]) :=
  if_pos (Int.natCast_nonneg fd)

/-- **How many descriptors are leaked.**  When a socket was connected and disconnected, one
descriptor is open more for each entry that was refused. -/
theorem card_sockDisconnect (os : Os) (results : List AddrInfo) (s : Socket)
    (calls : List Syscall) :
    let r := sockConnect os (.ok results) s calls
    (openAfter os.init (calls ++ r.calls ++ (sockDisconnect r.sock).2)).card
      = (openAfter os.init calls).card + refusals results := by
  intro r
  have htries : Tries os calls results r.ret r.calls := tries_connectLoop os results calls
  have hcard := htries.card_openAfter
  rw [show r.sock = ⟨r.ret⟩ from rfl]
  cases hfind : results.find? AddrInfo.connects with
  | none =>
    rw [htries.eq_neg_one hfind] at hcard ⊢
    rw [show (sockDisconnect ⟨-1⟩).2 = [] from rfl, List.append_nil]
    exact hcard
  | some rp =>
    obtain ⟨-, fd, -, hret⟩ := htries.found hfind
    have hopen := htries.returned.2
    rw [hret, descriptors_natCast, Finset.singleton_subset_iff] at hopen
    rw [hret, descriptors_natCast, Finset.card_singleton] at hcard
    have hclose : Handles.Proper (openAfter os.init (calls ++ r.calls)) [.closed fd] :=
      ⟨hopen, trivial⟩
    have hbalance := Handles.card_live hclose
    rw [hret, sockDisconnect_natCast, openAfter_append]
    rw [hcard] at hbalance
    exact Nat.add_right_cancel hbalance

end PubSub
