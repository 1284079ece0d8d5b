import Geocoding.Text.Alphanumeric.Table
import Geocoding.Text.Ranges

/-!
# Letters and digits

The characters that names may be made of, in any script.
-/

namespace Geocoding.Text

/-- A letter or a digit of any script. -/
def isAlphanumeric (c : Char) : Bool :=
  c.isAlphanum || inRanges alphanumericRanges c.toNat

end Geocoding.Text
