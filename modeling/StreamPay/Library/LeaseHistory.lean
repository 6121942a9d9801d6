import Mathlib.Order.Lattice
import StreamPay.Library.Interleaving

/-! What may be told of a lease: it is claimed when it is free or its time is past, and
ended under the token it was last claimed with. -/
namespace LeaseHistory
open Interleaving

inductive Lease (τ T : Type*)
  | free
  | held (token : τ) (deadline : T)
  deriving DecidableEq, Repr

inductive LeaseEvent (τ T : Type*)
  | claimed (token : τ) (deadline now : T)
  | ended (token : τ)
  deriving DecidableEq, Repr

variable {τ T : Type*} [DecidableEq τ] [LinearOrder T]

def Lease.next : Lease τ T → LeaseEvent τ T → Option (Lease τ T)
  | .free, .claimed token deadline _ => some (.held token deadline)
  | .held _ expired, .claimed token deadline now =>
    if expired < now then some (.held token deadline) else none
  | .held token _, .ended token' => if token' = token then some .free else none
  | .free, .ended _ => none

/-- What is told is the history of a lease that was free and is now `lease`. -/
def Legal (events : List (LeaseEvent τ T)) (lease : Lease τ T) : Prop :=
  exec Lease.next .free events = some lease

theorem Legal.snoc {events : List (LeaseEvent τ T)} {lease lease' : Lease τ T}
    (h : Legal events lease) {event : LeaseEvent τ T} (hnext : lease.next event = some lease') :
    Legal (events ++ [event]) lease' := by
  rw [Legal, exec_append, show exec Lease.next .free events = some lease from h, Option.bind_some,
    exec, hnext, Option.bind_some, exec]

end LeaseHistory
