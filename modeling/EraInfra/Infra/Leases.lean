import EraInfra.Infra.Policy

/-!
# App leases

Per-App operation leases (`infra/leases.ts`).  One row per App with a holder, an expiry and an
epoch; every change of holder raises the epoch, and giving the lease up keeps it.
-/

namespace EraInfra.Infra

open DocStore

/-- The lease row of an App; two of them are an error of `unique`. -/
def leaseRow (db : Db) (app : String) : Result (Option (DocId AppLease × AppLease)) :=
  db.appLeases.unique notUnique fun row => row.app = app

/-- The row as a lease is decided on. -/
def leaseOf (row : Option (DocId AppLease × AppLease)) : Option AppLease := row.map Prod.snd

structure AcquireInput where
  app : String
  holder : String
  operation : LeaseOperation

def acquireAppLease (now : ℤ) (input : AcquireInput) (db : Db) : Result (LeaseDecision × Db) := do
  let row ← leaseRow db input.app
  match decideLease (leaseOf row) input.holder now with
  | .refuse heldBy expiresAt => pure (.refuse heldBy expiresAt, db)
  | .grant epoch renewed =>
    let expiresAt := now + appLeaseTtlMs
    match row with
    | none =>
      pure (.grant epoch renewed, { db with
          appLeases := db.appLeases.insert
            { app := input.app, holder := some input.holder, operation := some input.operation
              epoch, expiresAt, acquiredAt := now } })
    | some (id, _) =>
      pure (.grant epoch renewed, db.patchLease id fun row =>
        { row with
          holder := some input.holder
          operation := some input.operation
          epoch, expiresAt
          acquiredAt := if renewed then row.acquiredAt else now })

/-- Throws unless `epoch` is the App's live lease. -/
def assertAppLease (now : ℤ) (app : String) (epoch : ℤ) (db : Db) :
    Result (DocId AppLease × AppLease) := do
  match ← leaseRow db app with
  | some (id, row) =>
    if leaseAdmits (some row) epoch now then pure (id, row)
    else throw ("Stale lease for " ++ app ++ ": epoch " ++ toString epoch ++
      " is not the live lease (now epoch " ++ toString row.epoch ++ ")")
  | none => throw ("Stale lease for " ++ app ++ ": epoch " ++ toString epoch ++
      " is not the live lease (now epoch 0)")

/-- Extends a live lease; a lapsed one is not revived. -/
def renewAppLease (now : ℤ) (app : String) (epoch : ℤ) (db : Db) : Result Db := do
  let (id, _) ← assertAppLease now app epoch db
  pure (db.patchLease id fun row => { row with expiresAt := now + appLeaseTtlMs })

/-- Gives the lease up.  The epoch stays, so the next holder's is higher. -/
def releaseAppLease (app : String) (epoch : ℤ) (db : Db) : Result Db := do
  match ← leaseRow db app with
  | none => pure db
  | some (id, row) =>
    if row.epoch = epoch ∧ row.holder ≠ none then
      pure (db.patchLease id fun row => { row with holder := none, operation := none })
    else pure db

end EraInfra.Infra
