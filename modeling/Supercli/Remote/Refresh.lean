import Supercli.Remote.Calls

/-!
# `Remote.Refresh` — what a bootstrap refresh does

The operations that `refresh_bootstrap_observed` makes behind the gate (`IsRefreshOp`) and `ensure_bootstrap` as a whole
(`IsBootstrapOp`).
-/

namespace Supercli.Remote

open Prog (Makes)

variable {P : Op → Prop}

theorem makes_op (h : P o) : (op o).Makes (S := Ops) P := ⟨h, fun _ => trivial⟩

theorem makes_withGate (hlock : P .lockGate) (hunlock : P .unlockGate)
    (hbody : body.Makes P) : (withGate body).Makes P :=
  (makes_op hlock).bind fun _ => hbody.bind fun _ => (makes_op hunlock).bind fun _ => trivial

/-- An error, which may invalidate the generation. -/
theorem makes_invalidates {error : HostConnectionError} {k : Thread α}
    (h : P (.invalidateGeneration generation)) (hk : k.Makes P) :
    (do
      if error.invalidatesGeneration then op (.invalidateGeneration generation)
      k : Thread α).Makes P := by
  split
  · exact (makes_op h).bind fun _ => hk
  · exact hk

/-- What is done behind the gate. -/
def IsRefreshOp : Op → Prop
  | .revision | .sharedBootstrap _ | .publish _ _ _ | .invalidateAll | .prepare _ => True
  | .request call => call.purpose = .bootstrap
  | _ => False

theorem makes_bootstrapFails (error : HostConnectionError) : (bootstrapFails error).Makes IsRefreshOp := by
  rw [bootstrapFails]
  split
  · exact (makes_op trivial).bind fun _ => trivial
  · exact trivial

theorem makes_acceptReply (dispatchRevision : Nat) (reply : HostReply) :
    (acceptReply dispatchRevision reply).Makes IsRefreshOp := by
  rw [acceptReply]
  split
  · exact (makes_op trivial).bind fun _ => trivial
  · split
    · exact (makes_op trivial).bind fun _ => trivial
    · split
      · exact (makes_op trivial).bind fun _ => trivial
      · exact (makes_op trivial).bind fun _ => trivial

theorem makes_refreshBehindGate (observedRevision : Nat) : (refreshBehindGate observedRevision).Makes IsRefreshOp := by
  refine (makes_op trivial).bind fun shared => ?_
  split
  · trivial
  · refine (makes_op trivial).bind fun dispatchRevision => (makes_op trivial).bind fun prepared => ?_
    split
    · exact (makes_bootstrapFails _).map
    · refine Makes.bind (makes_op rfl) fun replied => ?_
      split
      · trivial
      · exact (makes_bootstrapFails _).map
      · exact (makes_acceptReply _ _).map

/-- What a bootstrap does. -/
def IsBootstrapOp : Op → Prop
  | .lockGate | .unlockGate | .accepted => True
  | o => IsRefreshOp o

theorem isBootstrapOp_of_refresh (h : IsRefreshOp o) : IsBootstrapOp o := by
  cases o with
  | lockGate | unlockGate | accepted => trivial
  | _ => exact h

theorem makes_refreshBootstrap : refreshBootstrap.Makes IsBootstrapOp :=
  (makes_op trivial).bind fun _ =>
    makes_withGate trivial trivial ((makes_refreshBehindGate _).mono fun _ => isBootstrapOp_of_refresh)

theorem makes_ensureBootstrap : ensureBootstrap.Makes IsBootstrapOp := by
  refine (makes_op trivial).bind fun accepted => ?_
  split
  · trivial
  · refine makes_refreshBootstrap.bind fun refreshed => ?_
    split
    · trivial
    · trivial
    · refine (makes_op trivial).bind fun again => ?_
      split
      · trivial
      · trivial

end Supercli.Remote
