import Matchmaking.Decimal.Shortest
import Matchmaking.People.Profile
/-! Distances on the reference ellipsoid by Vincenty's inverse formula, in double precision. The
iteration for the difference in longitude on the auxiliary sphere ends when two rounds differ by
at most `10 ^ -12`; for nearly antipodal points it does not, and there is no distance then. -/
namespace Matchmaking
namespace Geo

inductive DistanceError
  | invalidCoordinate (place : Place)
  | failedToConverge

def DistanceError.message : DistanceError → String
  | invalidCoordinate p =>
    "coordinate out of range: lat " ++ Decimal.text p.latitude ++ ", lon " ++
      Decimal.text p.longitude
  | failedToConverge => "vincenty formula failed to converge"

/-- The equatorial radius in meters. -/
def equatorial : Float := 6378137

/-- The polar radius in meters. -/
def polar : Float := 6356752.314245

def flattening : Float := (equatorial - polar) / equatorial

def radians (degrees : Float) : Float := degrees * (3.14159265358979323846264338327950288 / 180)

def valid (p : Place) : Bool :=
  p.latitude.isFinite && p.longitude.isFinite && -90 ≤ p.latitude && p.latitude ≤ 90 &&
    -180 ≤ p.longitude && p.longitude ≤ 180

def check (p : Place) : Except DistanceError Place :=
  if valid p then .ok p else .error (.invalidCoordinate p)

/-- What stays the same over the rounds: the difference in longitude and the reduced latitudes. -/
structure Frame where
  longitude : Float
  sin1 : Float
  cos1 : Float
  sin2 : Float
  cos2 : Float

def Frame.between (a b : Place) : Frame :=
  let reduced (p : Place) : Float := ((1 - flattening) * (radians p.latitude).tan).atan
  { longitude := radians (b.longitude - a.longitude)
    sin1 := (reduced a).sin
    cos1 := (reduced a).cos
    sin2 := (reduced b).sin
    cos2 := (reduced b).cos }

/-- The arc between the two points on the auxiliary sphere, as one round finds it. -/
structure Arc where
  sinSigma : Float
  cosSigma : Float
  sigma : Float
  cosSqAlpha : Float
  cos2SigmaM : Float

/-- One round ends at the same point, or gives an arc and the next difference in longitude. -/
inductive Round
  | coincident
  | next (arc : Arc) (lambda : Float)

def Frame.round (f : Frame) (lambda : Float) : Round :=
  let sinLambda := lambda.sin
  let cosLambda := lambda.cos
  let across := f.cos2 * sinLambda
  let along := f.cos1 * f.sin2 - f.sin1 * f.cos2 * cosLambda
  let sinSigma := (across * across + along * along).sqrt
  if sinSigma == 0 then .coincident
  else
    let cosSigma := f.sin1 * f.sin2 + f.cos1 * f.cos2 * cosLambda
    let sigma := Float.atan2 sinSigma cosSigma
    let sinAlpha := f.cos1 * f.cos2 * sinLambda / sinSigma
    let cosSqAlpha := 1 - sinAlpha * sinAlpha
    let cos2SigmaM := if cosSqAlpha == 0 then 0 else cosSigma - 2 * f.sin1 * f.sin2 / cosSqAlpha
    let c := flattening / 16 * cosSqAlpha * (4 + flattening * (4 - 3 * cosSqAlpha))
    .next ⟨sinSigma, cosSigma, sigma, cosSqAlpha, cos2SigmaM⟩
      (f.longitude + (1 - c) * flattening * sinAlpha *
        (sigma + c * sinSigma *
          (cos2SigmaM + c * cosSigma * (-1 + 2 * cos2SigmaM * cos2SigmaM))))

/-- Where the rounds end. -/
inductive Limit
  | coincident
  | arc (arc : Arc)
  | none

/-- At most that many rounds, from a difference in longitude. -/
def Frame.iterate (f : Frame) : Nat → Float → Limit
  | 0, _ => .none
  | n + 1, lambda =>
    match f.round lambda with
    | .coincident => .coincident
    | .next arc next =>
      if (next - lambda).abs ≤ 1e-12 then .arc arc else f.iterate n next

/-- The length in meters of an arc of the auxiliary sphere on the ellipsoid. -/
def Arc.meters (s : Arc) : Float :=
  let uSq := s.cosSqAlpha * (equatorial * equatorial - polar * polar) / (polar * polar)
  let a := 1 + uSq / 16384 * (4096 + uSq * (-768 + uSq * (320 - 175 * uSq)))
  let b := uSq / 1024 * (256 + uSq * (-128 + uSq * (74 - 47 * uSq)))
  let delta := b * s.sinSigma *
    (s.cos2SigmaM + b / 4 *
      (s.cosSigma * (-1 + 2 * s.cos2SigmaM * s.cos2SigmaM) -
        b / 6 * s.cos2SigmaM * (-3 + 4 * s.sinSigma * s.sinSigma) *
          (-3 + 4 * s.cos2SigmaM * s.cos2SigmaM)))
  polar * a * (s.sigma - delta)

/-- The rounds after which the iteration is given up. -/
def maxRounds : Nat := 100

/-- The distance in kilometers; the first point is checked before the second. -/
def distanceKm (a b : Place) : Except DistanceError Float := do
  let a ← check a
  let b ← check b
  let frame := Frame.between a b
  match frame.iterate maxRounds frame.longitude with
  | .arc arc => return arc.meters / 1000
  | .coincident =>
    if a.latitude == b.latitude && a.longitude == b.longitude then return 0
    else throw .failedToConverge
  | .none => throw .failedToConverge

/-- How far apart two places are, in kilometers, where that can be told. -/
abbrev Ruler := Place → Place → Option Float

def ruler : Ruler := fun a b => (distanceKm a b).toOption

/-- Kilometers as whole millimeters, a half going away from zero. -/
def millimeters (km : Float) : Int := (km * 1000000).round.toInt64.toInt

end Geo
end Matchmaking
