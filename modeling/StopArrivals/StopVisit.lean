import StopArrivals.Digest.Sha256
import StopArrivals.Fingerprint
import StopArrivals.Text.Decimal
import StopArrivals.Text.Utf8

/-!
# Stop visits

One stop of one vehicle on one trip. The text that identifies a visit is its seven fields, the
integers in decimal, joined by the unit separator; the fingerprint is the first half of the
SHA-256 digest of that text. The predicted arrival is no part of it.
-/

namespace StopArrivals

/-- The trip that a vehicle is on. The date has the form YYYYMMDD, and the time counts seconds from
the midnight that begins the service day. -/
structure Trip where
  route : String
  direction : Int
  startDate : Int
  startTime : Int
  vehicle : String
deriving DecidableEq

structure StopVisit where
  trip : Trip
  stop : String
  sequence : Int
deriving DecidableEq

namespace StopVisit

def unitSeparator : UInt8 := 0x1F

/-- The seven identity fields as text. -/
def fields (v : StopVisit) : List String :=
  [v.trip.route, integerText v.trip.direction, integerText v.trip.startDate,
    integerText v.trip.startTime, v.trip.vehicle, v.stop, integerText v.sequence]

/-- The bytes that are hashed. -/
def identity (v : StopVisit) : List UInt8 := [unitSeparator].intercalate (v.fields.map utf8)

def fingerprint (v : StopVisit) : Fingerprint :=
  ⟨BitVec.ofNat 128 (numberOfBytes ((Sha256.digest v.identity).take 16))⟩

end StopVisit

end StopArrivals
