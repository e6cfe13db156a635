/-
# DbInventory.Instance.ListingId -- the identifier of a listing

A listing is identified by a checksum over the identifiers of its instances, in order. Each
identifier is followed by a dash, so that the borders between them count as well.
-/

import DbInventory.Digest.Crc32
import DbInventory.Text.Utf8

namespace DbInventory

/-- The text of a listing that its identifier is computed from. -/
def listingText (ids : List String) : String :=
  String.join (ids.map (· ++ "-"))

/-- The identifier of a listing, as a decimal number. -/
def listingId (ids : List String) : String :=
  toString (Crc32.checksum (Text.utf8 (listingText ids))).toNat

end DbInventory
