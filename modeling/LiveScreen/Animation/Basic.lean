/-
Animations as markup declares them. An animation is known by its end state and
the time it takes; showing the states in between is the display's business. A
set plays the animations nested in it together.
-/
import LiveScreen.Animation.Reading
import LiveScreen.Context
import LiveScreen.Layout.Params

namespace LiveScreen

/-- A change of opacity. -/
structure Alpha where
  start : Float
  finish : Float
  duration : Duration

/-- A turn around a pivot, in degrees. -/
structure Rotate where
  start : Float
  finish : Float
  pivot : Pair
  duration : Duration

/-- A change of size around a pivot. -/
structure Scale where
  start : Pair
  finish : Pair
  pivot : Pair
  duration : Duration

/-- A move, in physical pixels. -/
structure Translate where
  density : Float
  start : Pair
  finish : Pair
  duration : Duration

/-- A sequence of drawables, each shown for the same time. -/
structure FrameList where
  frames : List String
  frameDuration : Duration
  /-- Whether the sequence stops at its last frame instead of starting again. -/
  oneShot : Bool

/-- An animation. -/
inductive Animation where
  | alpha (a : Alpha)
  | rotate (r : Rotate)
  | scale (s : Scale)
  | translate (t : Translate)
  | frames (f : FrameList)
  /-- A change of opacity in a fixed time. -/
  | fade (finish : Float)
  /-- Animations played together, and the time they are declared to take as a whole. -/
  | set (children : List Animation) (declared : Option Duration)

/-- A number moved into the interval from zero to one; what is not positive, a zero with a sign too,
becomes the zero without a sign. -/
def clampUnit (n : Float) : Float :=
  if 0 < n then if n < 1 then n else 1 else 0

example : (clampUnit (-0.0)).toBits = 0 := by decide +kernel

namespace Alpha

/-- Opaque throughout. -/
def new : Alpha := ⟨1, 1, .zero⟩

/-- The attributes of a change of opacity. -/
def readings : List (Reading Alpha) :=
  [.number "fromalpha" fun n a => { a with start := clampUnit n },
    .number "toalpha" fun n a => { a with finish := clampUnit n },
    .time "duration" fun d a => { a with duration := d }]

end Alpha

namespace Rotate

/-- No turn at all. -/
def new : Rotate := ⟨0, 0, .zero, .zero⟩

/-- The attributes of a turn. -/
def readings : List (Reading Rotate) :=
  [.number "fromdegrees" fun n r => { r with start := n },
    .number "todegrees" fun n r => { r with finish := n },
    .number "pivotx" fun n r => { r with pivot.x := n },
    .number "pivoty" fun n r => { r with pivot.y := n },
    .time "duration" fun d r => { r with duration := d }]

end Rotate

namespace Scale

/-- The natural size throughout. -/
def new : Scale := ⟨⟨1, 1⟩, ⟨1, 1⟩, .zero, .zero⟩

/-- The attributes of a change of size. -/
def readings : List (Reading Scale) :=
  [.number "fromxscale" fun n s => { s with start.x := n },
    .number "fromyscale" fun n s => { s with start.y := n },
    .number "toxscale" fun n s => { s with finish.x := n },
    .number "toyscale" fun n s => { s with finish.y := n },
    .number "pivotx" fun n s => { s with pivot.x := n },
    .number "pivoty" fun n s => { s with pivot.y := n },
    .time "duration" fun d s => { s with duration := d }]

end Scale

namespace Translate

/-- No move, on a display of a density that can scale sizes. -/
def new (density : Float) : Except FactoryError Translate :=
  if validDensity density then .ok ⟨density, .zero, .zero, .zero⟩ else .error (.invalidDensity density)

/-- The attributes of a move, in density-independent pixels. -/
def readings : List (Reading Translate) :=
  [.number "fromxdelta" fun n t => { t with start.x := n * t.density },
    .number "fromydelta" fun n t => { t with start.y := n * t.density },
    .number "toxdelta" fun n t => { t with finish.x := n * t.density },
    .number "toydelta" fun n t => { t with finish.y := n * t.density },
    .time "duration" fun d t => { t with duration := d }]

end Translate

namespace FrameList

/-- No frames yet. -/
def new : FrameList := ⟨[], .tenth, false⟩

/-- The frames that a text lists between commas, trimmed, blank ones left out. -/
def framesOf (text : String) : List String :=
  (((Text.splitOn ',' text.toList).map Text.trim).filter fun f => f ≠ []).map String.ofList

/-- The attributes of a frame list. The frames have to be there; a list without any is refused,
but only after it has replaced the earlier one. -/
def readings : List (Reading FrameList) :=
  [fun attributes =>
      match attributes.getAnyCase? "frames" with
      | some value => .ok fun f => { f with frames := framesOf value.asText }
      | none => .error (.missingAttribute "frames"),
    .optional "frames" fun value =>
      if framesOf value.asText = [] then .error (.invalidAttribute "frames" value.asText) else .ok id,
    .time "duration" fun d f => { f with frameDuration := d },
    .optional "oneshot" fun value => .ok fun f => { f with oneShot := value.asFlag }]

end FrameList

namespace Animation

/-- The key an animation is registered under. -/
def name : Animation → String
  | .alpha _ => "alphaanimation"
  | .rotate _ => "rotateanimation"
  | .scale _ => "scaleanimation"
  | .translate _ => "translateanimation"
  | .frames _ => "animationlist"
  | .fade _ => "fade"
  | .set _ _ => "animationset"

/-- Applies markup attributes. A failure leaves what was read before it. -/
def configure (attributes : Attributes) : Animation → Except FactoryError Unit × Animation
  | .alpha a => (Reading.run attributes Alpha.readings a).map id .alpha
  | .rotate r => (Reading.run attributes Rotate.readings r).map id .rotate
  | .scale s => (Reading.run attributes Scale.readings s).map id .scale
  | .translate t => (Reading.run attributes Translate.readings t).map id .translate
  | .frames f => (Reading.run attributes FrameList.readings f).map id .frames
  | .fade finish => (.ok (), .fade (((attributes.get? "to").map Value.asNumber).getD finish))
  | .set children declared =>
    (Reading.run attributes [.timeOrUnset "duration" fun d _ => d] declared).map id (.set children)

/-- Nests an animation in another. Only sets take children; the flag says whether this one did. -/
def addChild (a child : Animation) : Bool × Animation :=
  match a with
  | .set children declared => (true, .set (children ++ [child]) declared)
  | other => (false, other)

/-- The time a frame list takes: as often the time of a frame as there are frames, the longest
time there is if that does not fit or the frames cannot be counted in 32 bits. -/
def framesDuration (f : FrameList) : Duration :=
  if f.frames.length < UInt32.size then (f.frameDuration.times? f.frames.length).getD .longest else .longest

mutual

/-- The time an animation takes. A set takes the time it is declared to take, else that of the
longest animation in it. -/
def duration : Animation → Duration
  | .alpha a => a.duration
  | .rotate r => r.duration
  | .scale s => s.duration
  | .translate t => t.duration
  | .frames f => framesDuration f
  | .fade _ => .tenth
  | .set children declared => declared.getD (Duration.longestOf (durations children))

/-- The times that animations take. -/
def durations : List Animation → List Duration
  | [] => []
  | a :: rest => a.duration :: durations rest

end

mutual

/-- The attributes an animation leaves on a node, in the order in which it writes them. -/
def endState : Animation → List (String × Value)
  | .alpha a => [("alpha", .number a.finish)]
  | .rotate r =>
    [("rotation", .number r.finish), ("pivot_x", .number r.pivot.x), ("pivot_y", .number r.pivot.y)]
  | .scale s =>
    [("scale_x", .number s.finish.x), ("scale_y", .number s.finish.y), ("pivot_x", .number s.pivot.x),
      ("pivot_y", .number s.pivot.y)]
  | .translate t => [("translation_x", .number t.finish.x), ("translation_y", .number t.finish.y)]
  | .frames f =>
    match if f.oneShot then f.frames.getLast? else f.frames.head? with
    | some frame => [("background", .text frame)]
    | none => []
  | .fade finish => [("alpha", .number finish)]
  | .set children _ => endStates children

/-- The attributes that animations leave, one after the other. -/
def endStates : List Animation → List (String × Value)
  | [] => []
  | a :: rest => a.endState ++ endStates rest

end

/-- The attributes of a node on which an animation was played. -/
def apply (a : Animation) (attributes : Attributes) : Attributes := attributes.insertAll a.endState

end Animation

end LiveScreen
