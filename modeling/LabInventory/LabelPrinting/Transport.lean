import LabInventory.LabelPrinting.Raster
import LabInventory.LabelPrinting.Status

namespace LabInventory

namespace LabelPrinting

inductive TransportError
  | blockedAddress (address : String)
  | blockedPort (port : UInt16)
  | unresolvable (host : String)
  | unreachable (endpoint : String)
  | io
  | timeout
  | status (e : StatusError)
deriving DecidableEq

def TransportError.text : TransportError → String
  | blockedAddress address => s!"Printer address {address} is not allowed"
  | blockedPort port =>
    s!"Printer port {port} is not allowed; use the printer's raw printing port (usually 9100)"
  | unresolvable host => s!"Could not resolve printer host {host}"
  | unreachable endpoint => s!"Could not reach the printer at {endpoint}"
  | io => "The printer stopped responding"
  | timeout => "The printer did not respond within the time allowed"
  | status e => e.text

inductive Event
  | sent (bytes : List UInt8)
  | received (bytes : List UInt8)
deriving DecidableEq

-- The network and the other end. A write that fails may have sent some of its bytes.
structure Peer where
  connect : Except TransportError Unit
  refusal : List Event → List UInt8 → Option (Nat × TransportError)
  reply : List Event → Except TransportError (List UInt8)

-- What has been sent and received on the connection.
abbrev Session (ε α : Type) := ExceptT ε (StateM (List Event)) α

namespace Session

variable {ε ε' α β : Type} {x : Session ε α} {f : α → Session ε β} {r : Except ε β}
  {events events' : List Event}

def lift (x : Except ε α) : Session ε α :=
  fun events => (x, events)

def mapError (f : ε → ε') (x : Session ε α) : Session ε' α :=
  fun events => ((x events).fst.mapError f, (x events).snd)

theorem bind_eq_of_ok {a : α} (h : x events = (.ok a, events')) : (x >>= f) events = f a events' := by
  change (match x events with
    | (a, events'') => ExceptT.bindCont f a events'') = _
  rw [h]
  rfl

theorem bind_eq_of_error {e : ε} (h : x events = (.error e, events')) :
    (x >>= f) events = (.error e, events') := by
  change (match x events with
    | (a, events'') => ExceptT.bindCont f a events'') = _
  rw [h]
  rfl

-- The first of two steps fails, or the second one goes on from where it has left.
theorem bind_cases (h : (x >>= f) events = (r, events')) :
    (∃ e, x events = (.error e, events') ∧ r = .error e) ∨
      ∃ a events'', x events = (.ok a, events'') ∧ f a events'' = (r, events') := by
  obtain ⟨⟨e | a, events''⟩, hx⟩ : ∃ p, x events = p := ⟨_, rfl⟩
  case error =>
    rw [bind_eq_of_error hx] at h
    obtain ⟨rfl, rfl⟩ := Prod.mk.inj h
    exact .inl ⟨e, hx, rfl⟩
  case ok =>
    rw [bind_eq_of_ok hx] at h
    exact .inr ⟨a, events'', hx, h⟩

theorem mapError_cases {x : Session ε' α} {f : ε' → ε} {r : Except ε α}
    (h : mapError f x events = (r, events')) : ∃ r', x events = (r', events') ∧ r = r'.mapError f := by
  obtain ⟨hr, he⟩ := Prod.mk.inj h
  exact ⟨(x events).fst, Prod.ext rfl he, hr.symm⟩

end Session

def write (peer : Peer) (payload : List UInt8) : Session TransportError Unit :=
  fun events =>
    match peer.refusal events payload with
    | none => (.ok (), events ++ [.sent payload])
    | some (n, e) => (.error e, events ++ [.sent (payload.take n)])

def readExact (peer : Peer) (n : Nat) : Session TransportError (List UInt8) :=
  fun events =>
    match peer.reply events with
    | .error e => (.error e, events)
    | .ok bytes =>
      if n ≤ bytes.length then
        (.ok (bytes.take n), events ++ [.received (bytes.take n)])
      else
        (.error .io, events)

def statusQuery : List UInt8 :=
  .replicate invalidateBytes 0x00 ++ ([esc, 0x40] ++ statusRequest)

def requestStatus (peer : Peer) : Session TransportError PrinterStatus := do
  write peer statusQuery
  let block ← readExact peer statusBlockLen
  Session.lift <| (PrinterStatus.parse block).mapError .status

def writeJob (peer : Peer) (payload : List UInt8) : Session TransportError Unit :=
  write peer payload

section

variable {peer : Peer} {payload : List UInt8} {events events' : List Event}

theorem write_cases {r : Except TransportError Unit} (h : write peer payload events = (r, events')) :
    ∃ bytes, bytes <+: payload ∧ events' = events ++ [.sent bytes] ∧ (r = .ok () → bytes = payload) := by
  unfold write at h
  split at h
  case h_1 =>
    obtain ⟨rfl, rfl⟩ := Prod.mk.inj h
    exact ⟨payload, List.prefix_refl _, rfl, fun _ => rfl⟩
  case h_2 n e hr =>
    obtain ⟨rfl, rfl⟩ := Prod.mk.inj h
    exact ⟨payload.take n, List.take_prefix _ _, rfl, nofun⟩

theorem readExact_cases {n : Nat} {r : Except TransportError (List UInt8)}
    (h : readExact peer n events = (r, events')) :
    (∃ e, r = .error e ∧ events' = events) ∨
      ∃ block, r = .ok block ∧ block.length = n ∧ events' = events ++ [.received block] := by
  unfold readExact at h
  split at h
  case h_1 e hr =>
    obtain ⟨rfl, rfl⟩ := Prod.mk.inj h
    exact .inl ⟨e, rfl, rfl⟩
  case h_2 bytes hr =>
    split at h
    case isTrue hn =>
      obtain ⟨rfl, rfl⟩ := Prod.mk.inj h
      exact .inr ⟨bytes.take n, rfl, List.length_take_of_le hn, rfl⟩
    case isFalse =>
      obtain ⟨rfl, rfl⟩ := Prod.mk.inj h
      exact .inl ⟨_, rfl, rfl⟩

-- The request may be cut short, and the answer may be missing.
theorem requestStatus_cases {r : Except TransportError PrinterStatus}
    (h : requestStatus peer events = (r, events')) :
    (∃ e bytes, r = .error e ∧ bytes <+: statusQuery ∧ events' = events ++ [.sent bytes]) ∨
      ∃ block, block.length = statusBlockLen ∧ r = (PrinterStatus.parse block).mapError .status ∧
        events' = events ++ [.sent statusQuery, .received block] := by
  obtain ⟨e, hw, rfl⟩ | ⟨_, events₁, hw, h⟩ := Session.bind_cases h
  case inl =>
    obtain ⟨bytes, hp, he, _⟩ := write_cases hw
    exact .inl ⟨e, bytes, rfl, hp, he⟩
  case inr =>
    obtain ⟨bytes, _, rfl, hok⟩ := write_cases hw
    obtain rfl := hok rfl
    obtain ⟨e, hb, rfl⟩ | ⟨block, events₂, hb, h⟩ := Session.bind_cases h
    case inl =>
      obtain ⟨_, _, rfl⟩ | ⟨_, hr, _⟩ := readExact_cases hb
      case inl => exact .inl ⟨e, statusQuery, rfl, List.prefix_refl _, rfl⟩
      case inr => exact nomatch hr
    case inr =>
      obtain ⟨_, hr, _⟩ | ⟨block', hr, hl, rfl⟩ := readExact_cases hb
      case inl => exact nomatch hr
      case inr =>
        obtain rfl := Except.ok.inj hr
        obtain ⟨rfl, rfl⟩ := Prod.mk.inj h
        exact .inr ⟨block, hl, rfl, List.append_assoc _ _ _⟩

end

end LabelPrinting

end LabInventory
