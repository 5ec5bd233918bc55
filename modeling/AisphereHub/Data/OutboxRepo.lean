import AisphereHub.Foundation.GoStrconv
import AisphereHub.Foundation.Keyed

/-! The lease bookkeeping of `k8s_outbox`: `Claim` and `ClaimEventTypes`, `RequeueStuck`, `Ack`
and `Nak`, each statement or transaction one step of the workers that share the
table. The row does not name its worker; the leases that were handed out are kept
beside the table. Instants are nanoseconds, and the table is in the order of its ids. -/
namespace AisphereHub

inductive OutboxStatus where
  | pending
  | in_progress
  | done
  | failed
deriving DecidableEq

structure OutboxRow where
  id : Int
  eventType : String := ""
  status : OutboxStatus := .pending
  retryCount : Nat := 0
  nextRetryAt : Int := 0
deriving DecidableEq

/-- An event in the hands of a worker, which gives it back by its `Ack` or `Nak`. -/
structure OutboxLease where
  worker : String
  id : Int
  leaseUntil : Int
  returned : Bool := false
deriving DecidableEq

/-- A `Nak` between its read and its update; `lease` counts the leases handed out before. -/
structure OutboxNak where
  lease : Nat
  id : Int
  nextRetry : Nat
  maxRetries : Int
  baseBackoff : Int
  now : Int
deriving DecidableEq

structure Outbox where
  rows : List OutboxRow
  now : Int := 0
  leases : List OutboxLease := []
  naks : List OutboxNak := []
deriving DecidableEq

/-- `types` is absent in `Claim`. -/
inductive OutboxStep where
  | pass (duration : Nat)
  | claim (worker : String) (types : Option (List String)) (limit lease : Int)
  | requeueStuck
  | ack (lease : Nat)
  | nakLoad (lease : Nat) (maxRetries baseBackoff : Int)
  | nakStore (nak : OutboxNak)
deriving DecidableEq

def second : Int := 10 ^ 9

namespace Outbox

def claimable (s : Outbox) (types : Option (List String)) (limit : Int) : List OutboxRow :=
  (s.rows.filter fun r => r.status = .pending ∧ r.nextRetryAt ≤ s.now ∧
    ∀ names ∈ types, r.eventType ∈ names).take (if limit ≤ 0 then 16 else limit.toNat)

def leaseUntil (s : Outbox) (types : Option (List String)) (lease : Int) : Int :=
  s.now + if types.isSome ∧ lease ≤ 0 then 120 * second else lease

/-- The wait before the next retry, shifted as an `int64`. -/
def backoff (nak : OutboxNak) : Int :=
  min (GoStrconv.wrapInt64 (nak.baseBackoff * 2 ^ nak.nextRetry)) (3600 * second)

def nakked (nak : OutboxNak) (r : OutboxRow) : OutboxRow :=
  if nak.maxRetries < nak.nextRetry then
    { r with status := .failed, retryCount := nak.nextRetry }
  else
    { r with
      status := .pending
      retryCount := nak.nextRetry
      nextRetryAt := nak.now + backoff nak }

def events (s : Outbox) : List Int := s.leases.map OutboxLease.id

def rowAfter (s : Outbox) (r : OutboxRow) : OutboxStep → OutboxRow
  | .claim _ types limit lease =>
    if r.id ∈ (s.claimable types limit).map OutboxRow.id then
      { r with status := .in_progress, nextRetryAt := s.leaseUntil types lease }
    else r
  | .requeueStuck =>
    if r.status = .in_progress ∧ r.nextRetryAt ≤ s.now then { r with status := .pending } else r
  | .ack lease =>
    if s.events[lease]? = some r.id ∧ r.status = .in_progress then { r with status := .done } else r
  | .nakStore nak => if r.id = nak.id ∧ r.status = .in_progress then nakked nak r else r
  | .pass _ | .nakLoad .. => r

def giveBack (s : Outbox) (lease : Nat) : List OutboxLease :=
  s.leases.modify lease fun l => { l with returned := true }

def next (s : Outbox) (step : OutboxStep) : Option Outbox :=
  let s' : Outbox := { s with rows := s.rows.map fun r => s.rowAfter r step }
  match step with
  | .pass duration => some { s' with now := s.now + duration }
  | .claim worker types limit lease =>
    some { s' with leases := s.leases ++ (s.claimable types limit).map fun r =>
      ⟨worker, r.id, s.leaseUntil types lease, false⟩ }
  | .requeueStuck => some s'
  | .ack lease => if lease < s.leases.length then some { s' with leases := s.giveBack lease } else none
  | .nakLoad lease maxRetries baseBackoff =>
    (s.leases[lease]?).map fun l =>
      match Keyed.lookup OutboxRow.id s.rows l.id with
      | none => s'
      | some r => { s' with naks := s.naks ++ [⟨lease, l.id, r.retryCount + 1,
          if maxRetries < 1 then 5 else maxRetries,
          if baseBackoff ≤ 0 then 5 * second else baseBackoff, s.now⟩] }
  | .nakStore nak =>
    if nak ∈ s.naks then
      some { s' with leases := s.giveBack nak.lease, naks := s.naks.erase nak }
    else none

end Outbox

end AisphereHub
