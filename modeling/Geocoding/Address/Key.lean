import Geocoding.Address.Basic
import Geocoding.Text.Lowercase
import Geocoding.Digest.Sha256

/-!
# Cache keys

Addresses that differ only in the case of letters or in outer blanks of street, city and state share a
key. Each field goes into the key behind its length in bytes, so no field can pass for two or for part of
another.
-/

namespace Geocoding.Address

/-- The form of a field that all its spellings share. -/
def canonicalField (s : String) : String :=
  Text.lower (Text.trim s)

/-- A field behind its length in bytes. -/
def sized (s : String) : String :=
  s.utf8ByteSize.repr ++ ":" ++ s

/-- The fields of the key: street, city and state in canonical form, the zip code as it stands. -/
def canonicalFields (a : Address) : List String :=
  [canonicalField a.street, canonicalField a.city, canonicalField a.state, a.zip]

/-- The text that is hashed. -/
def canonical (a : Address) : String :=
  String.join (a.canonicalFields.map sized)

/-- The cache key: the SHA-256 digest of the canonical text, in hexadecimal. -/
@[irreducible]
def key (a : Address) : String :=
  Sha256.hexDigest (Text.encode a.canonical)

end Geocoding.Address
