import Fluxon.Router.Route

/-!
# Leases of the master

`Lease` and what is done to a single one: it is created with an expiration time, refreshed by a
keepalive, and a put completion binds its key and version to it.
Times are milliseconds and times to live are seconds, as in the source.
-/

namespace Fluxon.LeaseManager

open Router

abbrev LeaseID := ℕ

/-- `LeaseMgrError`. -/
inductive LeaseMgrError
  | leaseExpired (leaseId : LeaseID) (message : String)
  | leaseNotFound (leaseId : LeaseID) (message : String)
  | invalidTTL (ttl : ℕ) (message : String)
  deriving DecidableEq

inductive LeaseState
  | active
  | expired
  deriving DecidableEq

structure Lease where
  id : LeaseID
  ttl : ℕ
  state : LeaseState
  keys : Table String PutIDForAKey
  expirationTime : ℕ

/-- `MIN_CLIENT_TTL_SECONDS`. -/
def minClientTtlSeconds : ℕ := 90

/-- The check of `grant_lease`. -/
def validateTtl (ttl : ℕ) : Except LeaseMgrError Unit :=
  if ttl < minClientTtlSeconds then
    .error (.invalidTTL ttl "invalid ttl: client lease TTL must be >= 90 seconds")
  else .ok ()

namespace Lease

/-- `Lease::new` at the clock reading `now`. -/
def new (now : ℕ) (id : LeaseID) (ttl : ℕ) : Lease :=
  { id, ttl, state := .active, keys := ∅,
    expirationTime := saturatingAdd now (saturatingMul ttl 1000) }

/-- The time to live of a keepalive: the custom one, or the lease's own. -/
def ttlToUse (l : Lease) (customTtl : Option ℕ) : ℕ := customTtl.getD l.ttl

/-- `refresh` at the clock reading `now`. The sum and the product are unchecked. -/
def refresh (now : ℕ) (customTtl : Option ℕ) (l : Lease) : Except LeaseMgrError Lease :=
  if l.state ≠ .active then .error (.leaseExpired l.id "Lease is not in Active state")
  else .ok { l with expirationTime := wrap64 (now + wrap64 (l.ttlToUse customTtl * 1000)) }

variable (key : String) (putId : PutIDForAKey)

/-- `attach_key`. -/
def attachKey (l : Lease) : Except LeaseMgrError Lease :=
  if l.state ≠ .active then .error (.leaseExpired l.id "Lease is not active")
  else .ok { l with keys := AList.insert key putId l.keys }

/-- `detach_key_if_version`. -/
def detachKeyIfVersion (l : Lease) : Lease :=
  if l.keys.lookup key = some putId then { l with keys := l.keys.erase key } else l

theorem attachKey_ok {key : String} {putId : PutIDForAKey} {l l' : Lease}
    (h : l.attachKey key putId = .ok l') :
    l' = { l with keys := AList.insert key putId l.keys } := by
  rw [attachKey] at h
  split at h
  · cases h
  · cases h
    rfl

theorem refresh_ok {now : ℕ} {customTtl : Option ℕ} {l l' : Lease}
    (h : l.refresh now customTtl = .ok l') :
    l' = { l with
      expirationTime := wrap64 (now + wrap64 (l.ttlToUse customTtl * 1000)) } := by
  rw [refresh] at h
  split at h
  · cases h
  · cases h
    rfl

@[simp] theorem expirationTime_detachKeyIfVersion
    (l : Lease) : (l.detachKeyIfVersion key putId).expirationTime = l.expirationTime := by
  rw [detachKeyIfVersion]
  split
  · rfl
  · rfl

theorem lookup_detachKeyIfVersion (key key' : String) (putId : PutIDForAKey) (l : Lease) :
    (l.detachKeyIfVersion key putId).keys.lookup key' =
      if key' = key ∧ l.keys.lookup key = some putId then none else l.keys.lookup key' := by
  rw [detachKeyIfVersion]
  by_cases hbound : l.keys.lookup key = some putId
  · simp only [hbound, if_true, and_true]
    exact Table.lookup_erase_eq l.keys key key'
  · simp only [hbound, if_false, and_false]

end Lease

end Fluxon.LeaseManager
