import LabInventory.Guests.Basic
import LabInventory.Library.FixedWindow

open FixedWindow

namespace LabInventory

namespace Guests

def rateLimitWindowSeconds : Nat :=
  10 * 60

def rateLimitMaxRequests : Nat :=
  10

-- The clock of the Redis server runs in milliseconds.
def rateLimitWindow : Nat :=
  rateLimitWindowSeconds * 1000

-- `IpAddr::to_string`
class IpFormat where
  showIp : IpAddr → String

namespace GuestRegistrationHasher

def rateLimitDomain : String :=
  "lab-inventory:guest-registration-rate-limit:v1\x00"

def rateLimitSubject [Cryptography] [IpFormat] (hasher : GuestRegistrationHasher) (ip : IpAddr) : String :=
  hasher.digest rateLimitDomain (IpFormat.showIp ip)

end GuestRegistrationHasher

structure GuestRegistrationRateLimit where
  allowed : Bool
  retryAfterSeconds : Nat

structure GuestRegistrationRateLimiter where
  scope : String
  hasher : GuestRegistrationHasher

-- The counters of the Redis server. An expired one stays until it is replaced.
abbrev Redis := String → Option Counter

-- The script increments a counter, lets a new one expire after the window, and returns the count and the time
-- that is left, rounded to seconds.
def updateRateLimit (key : String) (windowSeconds now : Nat) (s : Redis) : (Nat × Nat) × Redis :=
  let c := Counter.hit (windowSeconds * 1000) now (s key)
  ((c.count, (c.deadline - now + 500) / 1000), Function.update s key (some c))

-- What becomes of a call of the Redis server. A lost one was executed, but its answer does not arrive.
inductive Delivery
  | answered
  | lost
  | unreachable

structure Attempt where
  now : Nat
  peerIp : Option IpAddr
  delivery : Delivery

inductive Verdict
  | passed
  | tooManyRequests (retryAfterSeconds : Nat) (error : String)
  | serviceUnavailable (error : String)
deriving DecidableEq

def serviceUnavailableResponse : Verdict :=
  .serviceUnavailable "Guest registration is temporarily unavailable"

theorem serviceUnavailableResponse_ne : serviceUnavailableResponse ≠ .passed := by
  decide

namespace GuestRegistrationRateLimiter

variable [Cryptography] [IpFormat] (limiter : GuestRegistrationRateLimiter)

omit [IpFormat] in
def new (databaseName : String) (hasher : GuestRegistrationHasher) : GuestRegistrationRateLimiter where
  scope := hasher.digest GuestRegistrationHasher.rateLimitDomain databaseName
  hasher := hasher

def key (ip : IpAddr) : String :=
  "guest-registration:" ++ limiter.scope ++ ":" ++ limiter.hasher.rateLimitSubject ip

def check (ip : IpAddr) (now : Nat) (s : Redis) : GuestRegistrationRateLimit × Redis :=
  let ((count, ttl), s) := updateRateLimit (limiter.key ip) rateLimitWindowSeconds now s
  (⟨count ≤ rateLimitMaxRequests, max ttl 1⟩, s)

-- Without an answer of the Redis server, nothing is let through.
def enforceGuestRegistrationRateLimit (r : Attempt) (s : Redis) : Verdict × Redis :=
  match r.peerIp with
  | none => (serviceUnavailableResponse, s)
  | some ip =>
    match r.delivery with
    | .unreachable => (serviceUnavailableResponse, s)
    | .lost => (serviceUnavailableResponse, (limiter.check ip r.now s).2)
    | .answered =>
      let (limit, s) := limiter.check ip r.now s
      if limit.allowed then
        (.passed, s)
      else
        (.tooManyRequests limit.retryAfterSeconds "Too many registration attempts", s)

-- The attempts in the order in which they reach the server.
def serve : Redis → List Attempt → List (Attempt × Verdict)
  | _, [] => []
  | s, r :: rs =>
    let (verdict, s) := limiter.enforceGuestRegistrationRateLimit r s
    (r, verdict) :: serve s rs

-- When registrations from an address were let through.
def passes (ip : IpAddr) (served : List (Attempt × Verdict)) : List Nat :=
  (served.filter fun (r, verdict) => r.peerIp = some ip ∧ verdict = .passed).map (·.1.now)

variable {limiter} {ip : IpAddr} {n : Nat} {s : Redis} {ps : List Pass} {r : Attempt}

theorem check_snd {now : Nat} : (limiter.check ip now s).2 = Function.update s (limiter.key ip)
    (some (Counter.hit rateLimitWindow now (s (limiter.key ip)))) :=
  rfl

theorem check_allowed {now : Nat} : (limiter.check ip now s).1.allowed = true ↔
    (Counter.hit rateLimitWindow now (s (limiter.key ip))).count ≤ rateLimitMaxRequests :=
  decide_eq_true_iff

theorem ledger_check {ip' : IpAddr} {now : Nat}
    (h : Ledger rateLimitWindow n now (s (limiter.key ip)) ps) :
    Ledger rateLimitWindow n now ((limiter.check ip' now s).2 (limiter.key ip)) ps := by
  rw [check_snd]
  by_cases hk : limiter.key ip = limiter.key ip'
  case pos =>
    rw [← hk, Function.update_self]
    exact h.hit
  case neg =>
    rw [Function.update_of_ne hk]
    exact h

-- An attempt is let through by an answer which allows it, and at most counted otherwise.
theorem enforce_cases :
    (∃ ip, r.peerIp = some ip ∧ (limiter.check ip r.now s).1.allowed ∧
      limiter.enforceGuestRegistrationRateLimit r s = (.passed, (limiter.check ip r.now s).2)) ∨
    ((limiter.enforceGuestRegistrationRateLimit r s).1 ≠ .passed ∧
      ((limiter.enforceGuestRegistrationRateLimit r s).2 = s ∨
        ∃ ip, (limiter.enforceGuestRegistrationRateLimit r s).2 = (limiter.check ip r.now s).2)) := by
  unfold enforceGuestRegistrationRateLimit
  cases hr : r.peerIp
  case none => exact .inr ⟨serviceUnavailableResponse_ne, .inl rfl⟩
  case some ip =>
    cases r.delivery
    case unreachable => exact .inr ⟨serviceUnavailableResponse_ne, .inl rfl⟩
    case lost => exact .inr ⟨serviceUnavailableResponse_ne, .inr ⟨ip, rfl⟩⟩
    case answered =>
      by_cases ha : (limiter.check ip r.now s).1.allowed
      case pos => exact .inl ⟨ip, rfl, ha, if_pos ha⟩
      case neg =>
        simp only [ha]
        exact .inr ⟨by simp, .inr ⟨ip, rfl⟩⟩

-- An attempt either leaves the passes of an address as they are, or is one of them.
theorem ledger_enforce (h : Ledger rateLimitWindow rateLimitMaxRequests r.now (s (limiter.key ip)) ps) :
    ∃ qs : List Pass,
      Ledger rateLimitWindow rateLimitMaxRequests r.now
        ((limiter.enforceGuestRegistrationRateLimit r s).2 (limiter.key ip)) (ps ++ qs) ∧
      qs.map Pass.time = passes ip [(r, (limiter.enforceGuestRegistrationRateLimit r s).1)] := by
  obtain ⟨ip', hip, ha, he⟩ | ⟨hp, he⟩ := limiter.enforce_cases (r := r) (s := s)
  case inl =>
    rw [he]
    by_cases hi : ip' = ip
    case pos =>
      subst hi
      refine ⟨[⟨r.now, (Counter.hit rateLimitWindow r.now (s (limiter.key ip'))).deadline⟩], ?_, ?_⟩
      case refine_1 =>
        rw [check_snd, Function.update_self]
        exact h.pass (check_allowed.mp ha)
      case refine_2 => simp [passes, hip]
    case neg => exact ⟨[], (List.append_nil ps).symm ▸ ledger_check h, by simp [passes, hip, hi]⟩
  case inr =>
    refine ⟨[], ?_, by simp [passes, hp]⟩
    rw [List.append_nil]
    obtain he | ⟨ip', he⟩ := he <;> rw [he]
    case inl => exact h
    case inr => exact ledger_check h

theorem spread_serve {rs : List Attempt} {t : Nat} (hs : rs.Pairwise (·.now ≤ ·.now))
    (ht : ∀ r ∈ rs, t ≤ r.now)
    (h : Ledger rateLimitWindow rateLimitMaxRequests t (s (limiter.key ip)) ps) :
    ∃ qs : List Pass, Spread rateLimitWindow rateLimitMaxRequests (ps ++ qs) ∧
      qs.map Pass.time = passes ip (limiter.serve s rs) := by
  induction rs generalizing s t ps
  case nil => exact ⟨[], by simpa using h.spread, rfl⟩
  case cons r rs ih =>
    obtain ⟨hr, hs⟩ := List.pairwise_cons.mp hs
    obtain ⟨qs, hl, hq⟩ := ledger_enforce (r := r) (h.mono (ht r (.head _)))
    obtain ⟨qs', hsp, hq'⟩ := ih hs hr hl
    refine ⟨qs ++ qs', List.append_assoc .. ▸ hsp, ?_⟩
    rw [List.map_append, hq, hq', passes, passes, passes, ← List.map_append, ← List.filter_append]
    rfl

-- Whatever the Redis server holds, and whichever of its answers get lost, at most twice the limit of
-- one address is let through within the length of a window: what is left of one window, and the next
-- one.
theorem registrations_rate_limited (limiter : GuestRegistrationRateLimiter) (s : Redis)
    (rs : List Attempt) (ip : IpAddr) (a : Nat) (hs : rs.Pairwise (·.now ≤ ·.now)) :
    ((passes ip (limiter.serve s rs)).filter fun t => a ≤ t ∧ t ≤ a + rateLimitWindow).length ≤
      2 * rateLimitMaxRequests := by
  have hinit : Ledger rateLimitWindow rateLimitMaxRequests 0 (s (limiter.key ip)) [] := .init
  obtain ⟨qs, hq, he⟩ := spread_serve hs (fun _ _ => Nat.zero_le _) hinit
  rw [← he, List.filter_map, List.length_map]
  refine (hq.sublist (List.filter_sublist.trans (List.sublist_append_right _ _))).length_le (a := a) ?_
  intro p hp
  simpa using (List.mem_filter.mp hp).right

end GuestRegistrationRateLimiter

section Examples

def loopback : IpAddr :=
  .v4 127 0 0 1

@[reducible]
def loopbackFormat : IpFormat :=
  ⟨fun _ => "127.0.0.1"⟩

-- Eleven attempts at once.
def burst : List Attempt :=
  .replicate 11 ⟨0, some loopback, .answered⟩

theorem registrations_rate_limited_loopback :
    let _ := Cryptography.standard
    let _ := loopbackFormat
    let limiter := GuestRegistrationRateLimiter.new "lab" ⟨"secret"⟩
    let times := GuestRegistrationRateLimiter.passes loopback (limiter.serve (fun _ => none) burst)
    times = .replicate 10 0 ∧
      (times.filter fun t => 0 ≤ t ∧ t ≤ 0 + rateLimitWindow).length ≤ 2 * rateLimitMaxRequests := by
  let _ := Cryptography.standard
  let _ := loopbackFormat
  exact ⟨by decide +kernel,
    GuestRegistrationRateLimiter.registrations_rate_limited (.new "lab" ⟨"secret"⟩) (fun _ => none)
      burst loopback 0 (by decide)⟩

end Examples

end Guests

end LabInventory
