/-!
# Saturating addition

Counters and pixel edges stop at the largest value of their width instead of
wrapping around.
-/

set_option autoImplicit false

namespace GuestConsole.Saturating

def add16 (a b : UInt16) : UInt16 := UInt16.ofNat (min (a.toNat + b.toNat) 65535)

def add32 (a b : UInt32) : UInt32 := UInt32.ofNat (min (a.toNat + b.toNat) 4294967295)

theorem toNat_add16 (a b : UInt16) : (add16 a b).toNat = min (a.toNat + b.toNat) 65535 := by
  simp only [add16, UInt16.toNat_ofNat']
  omega

theorem toNat_add32 (a b : UInt32) :
    (add32 a b).toNat = min (a.toNat + b.toNat) 4294967295 := by
  simp only [add32, UInt32.toNat_ofNat']
  omega

end GuestConsole.Saturating
