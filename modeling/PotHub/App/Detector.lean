import PotHub.Json.Tree
import PotHub.Lib.Runs
import Mathlib.Algebra.Order.Ring.Int

/-!
# The detector

`onSensorChanged` of `LocationService` with the functions under it, and the
callback of the location updates.  Numbers are exact, of any ordered ring; the
distance on the earth and the conversion to `int` are parameters.  What the
geocoder answers is part of the sample.

A report goes out twice: as a broadcast with the position and the intensity, and
as a `Pothole` for the handler of the connection.  It is kept here once.

The run records the samples and the shocks so far as ghost state.
-/

namespace PotHub.App

open PotHub.Json PotHub.Lib

/-- What ends the process. -/
inductive JavaException
  | nullPointer
  | indexOutOfBounds
  | jsonSyntax
deriving DecidableEq, Repr

/-- A `LatLng`. -/
structure LatLng (K : Type) where
  latitude : K
  longitude : K
deriving DecidableEq, Repr

/-- What the detector uses of the libraries on numbers. -/
structure Measures (K : Type) where
  /-- `SphericalUtil.computeDistanceBetween`. -/
  computeDistanceBetween : LatLng K → LatLng K → K
  /-- The conversion `(int)`. -/
  toInt : K → Int

/-- An `Address` of the geocoder; a field is `none` where it is null. -/
structure Address where
  locality : Option Text
  countryCode : Option Text

/-- What `geocoder.getFromLocation` does. -/
inductive GeocoderAnswer
  | ioException
  /-- It returns a list, or null. -/
  | returns (addresses : Option (List Address))

/-- A `SensorEvent` with the magnitude of its acceleration, and what its handling
meets: the geocoder, the static `SigninFragment.username`, and the day as
`dd/MM/yyyy`. -/
structure Sample (K : Type) where
  /-- `event.sensor.getType() == Sensor.TYPE_ACCELEROMETER`. -/
  isAccelerometer : Bool
  acceleration : K
  geocoder : GeocoderAnswer
  username : Text
  today : Text

/-- A `Pothole`, as `setupReport` builds it. -/
structure Pothole (K : Type) where
  latitude : K
  longitude : K
  address : Text
  user : Text
  intensity : Int
  timestamp : Text
deriving DecidableEq

def Pothole.position {K : Type} (p : Pothole K) : LatLng K := ⟨p.latitude, p.longitude⟩

/-- The fields of the service that the detector works with. -/
structure Detector (K : Type) where
  previousAcceleration : K
  previousLatitude : K
  previousLongitude : K
  latitude : K
  longitude : K
  isFirstPothole : Bool
deriving DecidableEq

variable {K : Type} [Ring K] [LinearOrder K]

/-- The fields of a new instance. -/
def Detector.init : Detector K where
  previousAcceleration := -99999999
  previousLatitude := 0
  previousLongitude := 0
  latitude := 0
  longitude := 0
  isFirstPothole := true

/-- The test of the distance between two positions. -/
def Measures.FarApart (M : Measures K) (p q : LatLng K) : Prop :=
  30 < M.computeDistanceBetween p q

instance (M : Measures K) (p q : LatLng K) : Decidable (M.FarApart p q) :=
  inferInstanceAs (Decidable (_ < _))

/-- The field `threshold`. -/
def threshold : K := 10

def getPotholeIntensity (value : Int) : Int :=
  if 10 ≤ value ∧ value ≤ 15 then 1
  else if 16 ≤ value ∧ value ≤ 20 then 2
  else 3

/-- The character `'`. -/
def apostrophe : Char := Char.ofNat 39

/-- `setupReport`, for the answer of the geocoder.  A null country code is
appended as the text `null`. -/
def setupReport (M : Measures K) (d : Detector K) (sample : Sample K)
    (addresses : Option (List Address)) : Except JavaException (Pothole K) :=
  match addresses with
  | none => .error .nullPointer
  | some [] => .error .indexOutOfBounds
  | some (first :: _) =>
      match first.locality with
      | none => .error .nullPointer
      | some locality =>
          let name2 := locality.map fun c => if c = apostrophe then ' ' else c
          .ok
            { latitude := d.latitude
              longitude := d.longitude
              address := name2 ++ "#".toList ++ first.countryCode.getD "null".toList
              user := sample.username
              intensity := getPotholeIntensity
                (M.toInt (sample.acceleration - d.previousAcceleration))
              timestamp := sample.today }

/-- The `try` around the geocoder and `setupReport`: an `IOException` is caught,
and there is no report. -/
def tryReport (M : Measures K) (d : Detector K) (sample : Sample K) :
    Except JavaException (Option (Pothole K)) :=
  match sample.geocoder with
  | .ioException => .ok none
  | .returns addresses => (setupReport M d sample addresses).map some

namespace Detector

/-- The position of the last location update. -/
def current (d : Detector K) : LatLng K := ⟨d.latitude, d.longitude⟩

/-- The position of the last shock. -/
def previous (d : Detector K) : LatLng K := ⟨d.previousLatitude, d.previousLongitude⟩

/-- The test for a shock. -/
def Shock (d : Detector K) (sample : Sample K) : Prop :=
  threshold ≤ sample.acceleration - d.previousAcceleration

instance (d : Detector K) : DecidablePred d.Shock := fun _ => inferInstanceAs (Decidable (_ ≤ _))

/-- `previous_latitude` and `previous_longitude` are set to the position. -/
def mark (d : Detector K) : Detector K :=
  { d with previousLatitude := d.latitude, previousLongitude := d.longitude }

/-- The branch of a shock: the report, if there is one, and the fields behind
it. -/
def onShock (M : Measures K) (d : Detector K) (sample : Sample K) :
    Except JavaException (Option (Pothole K) × Detector K) :=
  if ¬ d.isFirstPothole then
    if M.FarApart d.previous d.current then
      (tryReport M d sample).map fun report => (report, d.mark)
    else .ok (none, d.mark)
  else if d.latitude ≠ 0 then
    (tryReport M d sample).map fun report => (report, { d.mark with isFirstPothole := false })
  else .ok (none, d.mark)

/-- `onSensorChanged`: what is handed to `reportPotHole`, and the fields behind
it. -/
def onSensorChanged (M : Measures K) (d : Detector K) (sample : Sample K) :
    Except JavaException (Option (Pothole K) × Detector K) :=
  if sample.isAccelerometer then
    (if d.Shock sample then d.onShock M sample else .ok (none, d)).map fun p =>
      (p.1, { p.2 with previousAcceleration := sample.acceleration })
  else .ok (none, d)

/-- `onLocationResult`; there may be no last location. -/
def onLocationResult (d : Detector K) : Option (LatLng K) → Detector K
  | none => d
  | some location => { d with latitude := location.latitude, longitude := location.longitude }

end Detector

end PotHub.App
