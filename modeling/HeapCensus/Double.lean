set_option autoImplicit false

namespace HeapCensus.Double

/-- The nearest double. A long number is cut to its leading 63 bits, and one bit more says whether anything
but zeros was cut off, so that rounding those 64 bits rounds the whole number. -/
def ofNat (number : Nat) : Float :=
  if number < UInt64.size then number.toUInt64.toFloat
  else
    let cut := number.log2 - 62
    let kept := number >>> cut
    let sticky := if kept <<< cut = number then 0 else 1
    (2 * kept + sticky).toUInt64.toFloat.scaleB (cut - 1 : Int)

def ratio (dividend divisor : Nat) : Float := ofNat dividend / ofNat divisor

end HeapCensus.Double
