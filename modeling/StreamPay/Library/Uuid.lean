import Mathlib.Data.String.Basic
import Mathlib.Order.Basic
import Mathlib.Tactic.Common

/-! UUIDs in their canonical text. The order of the texts is the order of the
sixteen bytes. -/

/-- Lower-case hexadecimal digits in groups of 8, 4, 4, 4 and 12. -/
def isUuid (text : String) : Bool :=
  text.length = 36 && text.toList.zipIdx.all fun (c,i) =>
    if i = 8 || i = 13 || i = 18 || i = 23 then c = '-' else c ∈ "0123456789abcdef".toList

@[ext] structure Uuid where
  text : String
  wellFormed : isUuid text = true
  deriving DecidableEq

namespace Uuid

instance : LinearOrder Uuid := LinearOrder.lift' text fun _ _ => Uuid.ext

theorem text_ne_empty (id : Uuid) : id.text ≠ "" := by
  intro hid
  have hlen := id.wellFormed
  rw [isUuid, hid] at hlen
  exact absurd hlen (by decide)

end Uuid
