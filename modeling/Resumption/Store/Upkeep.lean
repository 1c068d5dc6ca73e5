import Resumption.Store.Basic

/-!
# Upkeep

What the clock does to the store: new instances and instances whose deadline has come are made
ready in the order of their insertion, and unclaimed responses that have outlived their lifetime
are discarded in the order of their arrival. Both take a limit on how much one pass does.
-/

namespace Resumption.Store

/-- The records that a promotion of at most `most` instances makes ready, in order. -/
def promotionList (s : Store) (now : Instant) (most : Nat) : List Record :=
  ((s.records.filter fun r => r.dueAt now).mergeSort fun a b => a.number ≤ b.number).take most

/-- Makes up to `most` due instances ready, and counts them (`update_queue_state`). -/
def promote (s : Store) (now : Instant) (most : Nat) : Nat × Store :=
  let ids := (s.promotionList now most).map (·.id)
  (ids.length,
    { s with records := s.records.map fun r => if r.id ∈ ids then r.promote else r })

/-- Drops the first `most` responses of a list that have expired, and counts them. -/
def dropExpired (now : Instant) : (most : Nat) → List Unclaimed → Nat × List Unclaimed
  | _, [] => (0, [])
  | 0, us => (0, us)
  | most + 1, u :: us =>
    if u.expiry ≤ now then
      let (n, rest) := dropExpired now most us
      (n + 1, rest)
    else
      let (n, rest) := dropExpired now (most + 1) us
      (n, u :: rest)

/-- Discards up to `most` expired responses, and counts them (`delete_stale_responses`). -/
def sweep (s : Store) (now : Instant) (most : Nat) : Nat × Store :=
  let (n, rest) := dropExpired now most s.unclaimed
  (n, { s with unclaimed := rest })

end Resumption.Store
