import Odbcpp.Database.BackendResult

/-!
# The critical sections of session ownership

`SessionOwnershipState` and what `SessionOwner` and `SessionLease` do to it while they hold its
mutex, one definition for each section. Clock readings are arguments, and so is the state of the
credential authorities, which other threads change at will. The physical session is either present
or gone.
-/

namespace Odbcpp.Ownership

open Database

/-- Credentials: their authority, generation and expiry. -/
structure CredentialToken where
  authority : Nat
  generation : Option Nat
  expiry : Option Nat := none
deriving DecidableEq

/-- The current generation of each authority, none after a revocation. -/
abbrev Authorities := Nat → Option Nat

namespace CredentialToken

def sameGeneration (token other : CredentialToken) : Bool :=
  token.generation.isSome && token.generation = other.generation &&
    token.authority = other.authority

def isCurrent (token : CredentialToken) (authorities : Authorities) (now : Nat) : Bool :=
  token.generation.isSome && authorities token.authority = token.generation &&
    token.expiry.all (now < ·)

end CredentialToken

/-- When a session is too old to be lent again. -/
structure SessionReusePolicy where
  retireAt : Nat
  maxIdle : Nat
deriving DecidableEq

/-- The shared state. `authentication` is the authority the owner manages itself; `nextGeneration`
stands for the identities of cache scopes, which are never reused. -/
structure OwnershipState where
  session : Bool := true
  credential : Option CredentialToken := none
  authentication : Option Nat := none
  cacheGeneration : Option Nat := none
  reusePolicy : Option SessionReusePolicy := none
  idleSince : Nat := 0
  accepting : Bool := true
  leased : Bool := false
  nextGeneration : Nat := 0
deriving DecidableEq

/-- The clock readings of a section: that of `is_current`, the one for the lifetime, and the one for
the idle limit or a deadline. -/
structure Readings where
  credential : Nat
  lifetime : Nat
  other : Nat := 0
deriving DecidableEq

/-- How a section ends: its state, whether it admitted its caller, and whether the session leaves to
be retired. -/
structure SectionEnd where
  owner : OwnershipState
  admitted : Bool := false
  handed : Bool := false
deriving DecidableEq

namespace OwnershipState

variable (owner : OwnershipState)

def lifetimeExpired (sample : Nat) : Bool :=
  owner.reusePolicy.any fun policy => policy.retireAt ≤ sample

def idleExpired (sample : Nat) : Bool :=
  owner.reusePolicy.any fun policy => !owner.leased && owner.idleSince ≤ sample &&
    policy.maxIdle ≤ sample - owner.idleSince

variable (authorities : Authorities)

def credentialCurrent (now : Nat) : Bool :=
  owner.credential.any fun credential => credential.isCurrent authorities now

/-- Admission is closed for good, and the cache scope with it. -/
def shut : OwnershipState :=
  { owner with accepting := false, cacheGeneration := none }

def surrender : SectionEnd :=
  if owner.leased then { owner }
  else { owner := { owner with session := false }, handed := owner.session }

/-- The section of `SessionOwner::close` and, for a managed authority, of
`SessionOwner::revoke_credentials`. -/
def close : SectionEnd := owner.shut.surrender

def lend : SectionEnd :=
  if owner.leased then { owner } else { owner := { owner with leased := true }, admitted := true }

def tryAcquire (token : Option CredentialToken) (readings : Readings) : SectionEnd :=
  if !owner.accepting || !owner.session then { owner }
  else
    match owner.credential, token with
    | some credential, some token =>
      -- A foreign token cannot be used to retire the session.
      if !credential.sameGeneration token then { owner }
      else if !credential.isCurrent authorities readings.credential ||
          owner.lifetimeExpired readings.lifetime || owner.idleExpired readings.other then
        owner.close
      else owner.lend
    | none, none => owner.lend
    | _, _ => { owner }

def retire : SectionEnd where
  owner := { owner.shut with leased := false, session := false }
  handed := owner.session

/-- The section of `SessionLease::invalidate_cache`. -/
def invalidateCache (sample : Nat) : OwnershipState :=
  { owner with
    cacheGeneration := none
    accepting := owner.accepting && !owner.lifetimeExpired sample }

variable (readings : Readings)

/-- Leased, present and admitted with a current credential. -/
def eligible : Bool :=
  owner.accepting && owner.leased && owner.session &&
    owner.credentialCurrent authorities readings.credential &&
    !owner.lifetimeExpired readings.lifetime

/-- The last section of `SessionLease::return_reusable`: the one place where a
session becomes available again. -/
def publishReturn (deadline : Nat) (readings : Readings) : SectionEnd :=
  if readings.other < deadline ∧ owner.eligible authorities readings then
    { owner :=
        { owner with
          cacheGeneration := none
          idleSince := readings.lifetime
          leased := false }
      admitted := true }
  else { owner }

/-- The last section of `SessionOwner::acquire_healthy`. -/
def finishProbe (deadline : Nat) (readings : Readings) : SectionEnd where
  owner := { owner with cacheGeneration := none }
  admitted := readings.other < deadline && owner.eligible authorities readings

/-- Whether a scope could be current at all. -/
def scopeEligible : Bool :=
  owner.accepting && owner.leased && owner.session && owner.credential.isSome

/-- The check that both sections of `cache_token` and `cache_current` share: a
stale credential or lifetime closes admission. -/
def checkScope : SectionEnd :=
  if !owner.credentialCurrent authorities readings.credential ||
      owner.lifetimeExpired readings.lifetime then
    { owner := owner.shut }
  else { owner, admitted := true }

/-- `cache_current`, behind `SessionCacheToken::is_current` and
`SessionLease::accepts_cache`. -/
def cacheCurrent (generation : Nat) (readings : Readings) : SectionEnd :=
  if !owner.scopeEligible || owner.cacheGeneration ≠ some generation then { owner }
  else owner.checkScope authorities readings

/-- The first section of `SessionLease::cache_token`. -/
def enterScope : SectionEnd :=
  if !owner.scopeEligible then { owner } else owner.checkScope authorities readings

/-- The second section of `SessionLease::cache_token`: the scope a token names, allocated if there
is none. -/
def issueScope (idle : Bool) (readings : Readings) : OwnershipState × Option Nat :=
  if !idle || !owner.accepting || !owner.leased || !owner.session then
    ({ owner with cacheGeneration := none }, none)
  else
    let checked := owner.checkScope authorities readings
    if !checked.admitted then (checked.owner, none)
    else
      match owner.cacheGeneration with
      | some generation => (owner, some generation)
      | none =>
        ({ owner with
          cacheGeneration := some owner.nextGeneration
          nextGeneration := owner.nextGeneration + 1 }, some owner.nextGeneration)

end OwnershipState

end Odbcpp.Ownership
