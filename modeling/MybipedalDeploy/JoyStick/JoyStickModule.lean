import Mathlib.Algebra.Field.Rat
import Mathlib.Data.List.ProdSigma
import MybipedalDeploy.JoyStick.Joy
import MybipedalDeploy.JoyStick.JoyVelLimiter
import MybipedalDeploy.Library.LastWrite
import MybipedalDeploy.Library.Runs
import MybipedalDeploy.Messages

/-!
# The joystick module

`MainLoop` copies the state of the device once per cycle and goes through its
publishers. One limiter and one twist message serve all twist publishers.
-/

namespace MybipedalDeploy.JoyStick
open Msg (Twist Vector3)

structure FloatPub where
  topicName : String
  buttons : List ℕ

structure ServiceClient where
  serviceName : String
  interfaceType : String
  buttons : List ℕ

def ServiceClient.command (c : ServiceClient) : String :=
  "ros2 service call /" ++ c.serviceName ++ " " ++ c.interfaceType ++ " > /dev/null &"

/-- `axis` holds the entries of the YAML map in order; the limits are there if both
bounds are. -/
structure TwistPub (K : Type) where
  topicName : String
  buttons : List ℕ
  axis : List (String × ℕ)
  limits : Option (List K × List K)

structure Config (K : Type) where
  freq : ℕ
  floatPubs : List FloatPub
  twistPubs : List (TwistPub K)
  srvClients : List ServiceClient

inductive Component
  | linearX | linearY | linearZ | angularX | angularY | angularZ
  deriving DecidableEq

namespace Component

def all : List Component := [linearX, linearY, linearZ, angularX, angularY, angularZ]

def key : Component → String
  | linearX => "linear-x"
  | linearY => "linear-y"
  | linearZ => "linear-z"
  | angularX => "angular-x"
  | angularY => "angular-y"
  | angularZ => "angular-z"

variable {K : Type}

def get (v : Twist K) : Component → K
  | linearX => v.linear.x
  | linearY => v.linear.y
  | linearZ => v.linear.z
  | angularX => v.angular.x
  | angularY => v.angular.y
  | angularZ => v.angular.z

def set (v : Twist K) (x : K) : Component → Twist K
  | linearX => { v with linear := { v.linear with x := x } }
  | linearY => { v with linear := { v.linear with y := x } }
  | linearZ => { v with linear := { v.linear with z := x } }
  | angularX => { v with angular := { v.angular with x := x } }
  | angularY => { v with angular := { v.angular with y := x } }
  | angularZ => { v with angular := { v.angular with z := x } }

theorem get_set (v : Twist K) (x : K) (c c' : Component) :
    (c.set v x |> c'.get) = if c' = c then x else c'.get v := by
  cases c <;> cases c' <;> rfl

end Component

/-- What the loop reads without having written it: behind the axes of the device and, for
the publisher of a topic, in its fresh target array and behind its copy of the limiter's
state. -/
structure Stray (K : Type) where
  axis : ℕ → K
  target : String → ℕ → K
  state : String → ℕ → K

def Stray.zero (K : Type) [Zero K] : Stray K := ⟨fun _ => 0, fun _ _ => 0, fun _ _ => 0⟩

structure Reading (K : Type) extends JoyStruct K where
  stray : Stray K

inductive Output (K : Type)
  | float (topic : String)
  | twist (k : ℕ) (topic : String) (msg : Twist K)
  | limited (k : ℕ) (topic : String) (msg : Twist K)
  | call (command : String)

inductive Turn (K : Type)
  | float (p : FloatPub)
  | twist (e : TwistPub K × ℕ)
  | call (s : ServiceClient)

def Config.turns {K : Type} (c : Config K) : List (Turn K) :=
  c.floatPubs.map .float ++ c.twistPubs.zipIdx.map .twist ++ c.srvClients.map .call

theorem Config.getElem?_of_turn {K : Type} {c : Config K} {p : TwistPub K} {k : ℕ}
    (h : .twist (p, k) ∈ c.turns) : c.twistPubs[k]? = some p := by
  simpa [Config.turns, List.mem_zipIdx_iff_getElem?] using h

structure MainLoop (K : Type) where
  velMsgs : Twist K
  limiter : Option (JoyVelLimiter K)
  log : List (Output K)

namespace TwistPub
variable {K : Type}

/-- A later entry for a key replaces an earlier one. -/
def find (p : TwistPub K) (key : String) : Option ℕ := p.axis.reverse.lookup key

def axes (p : TwistPub K) : List (Component × ℕ) :=
  Component.all.filterMap fun c => (p.find c.key).map (c, ·)

end TwistPub

namespace JoyStruct
variable {K : Type}

/-- `ret` after the loop over the buttons. -/
def pressed (d : JoyStruct K) (buttons : List ℕ) : Bool :=
  buttons.all fun b => d.buttons.getD b 0 % 2 == 1

end JoyStruct

namespace MainLoop
variable {K : Type}

def emit (m : MainLoop K) (o : Output K) : MainLoop K := { m with log := m.log ++ [o] }

def schedule (c : Config K) (ds : List (Reading K)) : List (Reading K × Turn K) :=
  ds.flatMap fun d => c.turns.map (Prod.mk d)

theorem mem_schedule {c : Config K} {ds : List (Reading K)} {x : Reading K × Turn K}
    (h : x ∈ schedule c ds) : x.1 ∈ ds ∧ x.2 ∈ c.turns := by
  obtain ⟨d, hd, hx⟩ := List.mem_flatMap.mp h
  obtain ⟨t, ht, rfl⟩ := List.mem_map.mp hx
  exact ⟨hd, ht⟩

end MainLoop

variable {K : Type}

/-- The last publisher with limits, and its place: the limiter is built from its bounds. -/
def owner (pubs : List (TwistPub K)) : Option (TwistPub K × ℕ) :=
  (pubs.zipIdx.filter fun e => e.1.limits.isSome).getLast?

def writeAxes (axes : List (Component × ℕ)) (values : List K) (v : Twist K) : Twist K :=
  (axes.zip values).foldl (fun v e => e.1.1.set v e.2) v

section WriteAxes
variable {axes : List (Component × ℕ)} {values : List K} {v : Twist K} {c : Component}

def written (c : Component) (e : (Component × ℕ) × K) : Option K :=
  if c = e.1.1 then some e.2 else none

theorem get_writeAxes_eq : c.get (writeAxes axes values v) =
    (LastWrite.lastHit (written c) (axes.zip values)).getD (c.get v) := by
  refine LastWrite.view_foldl (written c) _ c.get (fun _ => True) (fun _ _ _ => trivial) ?_ _ trivial
  intro w e _
  rw [Component.get_set, written]
  split_ifs <;> rfl

theorem get_writeAxes (hnodup : (axes.map Prod.fst).Nodup) {i n : ℕ} {x : K}
    (hi : axes[i]? = some (c, n)) (hx : values[i]? = some x) :
    c.get (writeAxes axes values v) = x := by
  have hmem : ((c, n), x) ∈ axes.zip values :=
    List.mem_of_getElem? (List.getElem?_zip_eq_some.mpr ⟨hi, hx⟩)
  have hlast : LastWrite.lastHit (written c) (axes.zip values) = some x := by
    refine LastWrite.lastHit_of_unique _ hmem (if_pos rfl) fun e he b hb => ?_
    obtain ⟨j, hj⟩ := List.getElem?_of_mem he
    obtain ⟨haxis, hvalue⟩ := List.getElem?_zip_eq_some.mp hj
    rw [written] at hb
    split_ifs at hb with hc
    cases hb
    have hat : (axes.map Prod.fst)[i]? = (axes.map Prod.fst)[j]? := by
      simp [hi, haxis, hc]
    have hlen : i < (axes.map Prod.fst).length := by
      simpa using (List.getElem?_eq_some_iff.mp hi).1
    obtain rfl := (List.getElem?_inj hlen hnodup).mp hat
    exact Option.some.inj (hvalue.symm.trans hx)
  rw [get_writeAxes_eq, hlast, Option.getD_some]

end WriteAxes

theorem TwistPub.axes_nodup (p : TwistPub K) : (p.axes.map Prod.fst).Nodup := by
  rw [TwistPub.axes, List.map_filterMap]
  refine List.Nodup.filterMap (fun c c' b hb hb' => ?_) (by decide)
  simp only [Option.map_map, Option.mem_def, Option.map_eq_some_iff, Function.comp_apply] at hb hb'
  obtain ⟨_, _, rfl⟩ := hb
  obtain ⟨_, _, rfl⟩ := hb'
  rfl

theorem owner_concat (pubs : List (TwistPub K)) (p : TwistPub K) :
    owner (pubs ++ [p]) = if p.limits.isSome then some (p, pubs.length) else owner pubs := by
  unfold owner
  rw [List.zipIdx_append, List.filter_append]
  by_cases hp : p.limits.isSome = true <;> simp [hp]

theorem owner_singleton (p : TwistPub K) :
    owner [p] = if p.limits.isSome then some (p, 0) else none := owner_concat [] p

theorem limits_of_owner {pubs : List (TwistPub K)} {e : TwistPub K × ℕ} (h : owner pubs = some e) :
    e.1.limits.isSome = true :=
  (List.mem_filter.mp (List.mem_of_getLast? h)).2

theorem getElem?_of_owner {pubs : List (TwistPub K)} {p : TwistPub K} {k : ℕ}
    (h : owner pubs = some (p, k)) : pubs[k]? = some p :=
  List.mem_zipIdx_iff_getElem?.mp (List.mem_filter.mp (List.mem_of_getLast? h)).1

theorem limits_of_owner_eq_none {pubs : List (TwistPub K)} (h : owner pubs = none)
    {p : TwistPub K} {k : ℕ} (hp : pubs[k]? = some p) : p.limits.isSome = false := by
  have hempty := List.getLast?_eq_none_iff.mp h
  have hnot := List.filter_eq_nil_iff.mp hempty (p, k) (List.mem_zipIdx_iff_getElem?.mpr hp)
  simpa using hnot

variable [Field K]

def Reading.targets (d : Reading K) (p : TwistPub K) : List K :=
  p.axes.map fun e => d.axis.getD e.2 (d.stray.axis e.2)

def Reading.target (d : Reading K) (p : TwistPub K) (i : ℕ) : K :=
  (d.targets p).getD i (d.stray.target p.topicName i)

/-- The limiter's state as the loop reads it, one value for each axis of the publisher;
its dimension is not looked at. -/
def JoyVelLimiter.values (l : JoyVelLimiter K) (behind : ℕ → K) (n : ℕ) : List K :=
  (List.range n).map fun i => if h : i < l.dim then l.state ⟨i, h⟩ else behind i

namespace MainLoop
variable (solver : Solver K)

def floatTurn (d : Reading K) (m : MainLoop K) (p : FloatPub) : MainLoop K :=
  if d.pressed p.buttons then m.emit (.float p.topicName) else m

def twistTurn (d : Reading K) (m : MainLoop K) (e : TwistPub K × ℕ) : MainLoop K :=
  let (p, k) := e
  match m.limiter with
  | none => m
  | some l =>
    if d.pressed p.buttons then
      let vel := writeAxes p.axes (d.targets p) m.velMsgs
      let l := l.update solver fun i => d.target p i
      let limited := writeAxes p.axes (l.values (d.stray.state p.topicName) p.axes.length) vel
      ({ m with velMsgs := limited, limiter := some l }.emit (.twist k p.topicName vel)).emit
        (.limited k (p.topicName ++ "_limiter") limited)
    else m

def callTurn (d : Reading K) (m : MainLoop K) (c : ServiceClient) : MainLoop K :=
  if d.pressed c.buttons then m.emit (.call c.command) else m

def cycle (c : Config K) (m : MainLoop K) (d : Reading K) : MainLoop K :=
  c.srvClients.foldl (callTurn d)
    (c.twistPubs.zipIdx.foldl (twistTurn solver d) (c.floatPubs.foldl (floatTurn d) m))

def turn (d : Reading K) (m : MainLoop K) : Turn K → MainLoop K
  | .float p => m.floatTurn d p
  | .twist e => m.twistTurn solver d e
  | .call s => m.callTurn d s

theorem cycle_eq (c : Config K) (m : MainLoop K) (d : Reading K) :
    m.cycle solver c d = c.turns.foldl (turn solver d) m := by
  rw [Config.turns, List.foldl_append, List.foldl_append, List.foldl_map, List.foldl_map,
    List.foldl_map]
  rfl

def play (m : MainLoop K) (x : Reading K × Turn K) : MainLoop K := m.turn solver x.1 x.2

theorem twistTurn_dim (d : Reading K) (m : MainLoop K) (e : TwistPub K × ℕ) :
    (m.twistTurn solver d e).limiter.map JoyVelLimiter.dim =
      m.limiter.map JoyVelLimiter.dim := by
  unfold MainLoop.twistTurn
  cases hl : m.limiter with
  | none => simp [hl]
  | some l =>
    dsimp only
    split_ifs
    · rfl
    · rw [hl]

theorem turn_dim (d : Reading K) (m : MainLoop K) (x : Turn K) :
    (m.turn solver d x).limiter.map JoyVelLimiter.dim = m.limiter.map JoyVelLimiter.dim := by
  cases x with
  | twist e => exact m.twistTurn_dim solver d e
  | float p =>
    rw [turn, floatTurn]
    split_ifs <;> rfl
  | call s =>
    rw [turn, callTurn]
    split_ifs <;> rfl

theorem foldl_play_dim (m : MainLoop K) (xs : List (Reading K × Turn K)) :
    (xs.foldl (play solver) m).limiter.map JoyVelLimiter.dim = m.limiter.map JoyVelLimiter.dim :=
  Runs.foldl_invariant _
    (fun m' : MainLoop K => m'.limiter.map JoyVelLimiter.dim = m.limiter.map JoyVelLimiter.dim) rfl
    (fun m' x h => (m'.turn_dim solver x.1 x.2).trans h) xs

theorem foldl_cycle (c : Config K) (m : MainLoop K) (ds : List (Reading K)) :
    ds.foldl (cycle solver c) m = (schedule c ds).foldl (play solver) m := by
  induction ds generalizing m with
  | nil => rfl
  | cons d ds ih =>
    have hsplit : schedule c (d :: ds) = c.turns.map (Prod.mk d) ++ schedule c ds :=
      List.flatMap_cons
    rw [List.foldl_cons, ih, hsplit, List.foldl_append, List.foldl_map, cycle_eq]
    rfl

end MainLoop

def setUpLimiter (dt : K) (limiter : Option (JoyVelLimiter K)) (p : TwistPub K) :
    Except String (Option (JoyVelLimiter K)) :=
  match p.limits with
  | none => .ok limiter
  | some (lb, ub) => (JoyVelLimiter.create p.axis.length dt lb ub).map some

def Config.limiter (c : Config K) : Except String (Option (JoyVelLimiter K)) :=
  c.twistPubs.foldlM (setUpLimiter (1 / (c.freq : K))) none

def Config.start (c : Config K) : Except String (MainLoop K) :=
  c.limiter.map fun l => ⟨.zero K, l, []⟩

theorem start_eq_ok {c : Config K} {m : MainLoop K} (h : c.start = .ok m) :
    ∃ l, c.limiter = .ok l ∧ m = ⟨.zero K, l, []⟩ := by
  unfold Config.start at h
  cases hl : c.limiter with
  | error e =>
    rw [hl] at h
    cases h
  | ok l =>
    rw [hl] at h
    cases h
    exact ⟨l, rfl, rfl⟩

theorem setUpLimiter_of_isNone {dt : K} {limiter : Option (JoyVelLimiter K)} {p : TwistPub K}
    (h : p.limits.isSome = false) : setUpLimiter dt limiter p = .ok limiter := by
  rw [Option.isSome_eq_false_iff, Option.isNone_iff_eq_none] at h
  rw [setUpLimiter, h]

theorem foldlM_setUpLimiter {dt : K} {pubs : List (TwistPub K)} {l : Option (JoyVelLimiter K)}
    (h : pubs.foldlM (setUpLimiter dt) none = .ok l) :
    match owner pubs with
    | none => l = none
    | some (p, _) => setUpLimiter dt none p = .ok l := by
  induction pubs using List.reverseRecOn generalizing l with
  | nil =>
    cases h
    rfl
  | append_singleton pubs p ih =>
    rw [List.foldlM_append] at h
    cases hinit : pubs.foldlM (setUpLimiter dt) none with
    | error e =>
      rw [hinit] at h
      cases h
    | ok l' =>
      rw [hinit] at h
      simp only [List.foldlM_cons, List.foldlM_nil, bind_pure] at h
      have hlast : setUpLimiter dt l' p = .ok l := h
      rw [owner_concat]
      cases hp : p.limits.isSome with
      | true =>
        obtain ⟨⟨lb, ub⟩, hlimits⟩ := Option.isSome_iff_exists.mp hp
        rw [setUpLimiter, hlimits] at hlast
        simpa [setUpLimiter, hlimits] using hlast
      | false =>
        rw [setUpLimiter_of_isNone hp] at hlast
        cases hlast
        simpa using ih hinit

theorem limiter_of_start {c : Config K} {m : MainLoop K} (h : c.start = .ok m) :
    (owner c.twistPubs = none ∧ m.limiter = none) ∨
      ∃ p k lb ub l, owner c.twistPubs = some (p, k) ∧ p.limits = some (lb, ub) ∧
        JoyVelLimiter.create p.axis.length (1 / (c.freq : K)) lb ub = .ok l ∧ m.limiter = some l := by
  obtain ⟨l, hl, rfl⟩ := start_eq_ok h
  have hset := foldlM_setUpLimiter hl
  cases ho : owner c.twistPubs with
  | none =>
    rw [ho] at hset
    exact .inl ⟨rfl, hset⟩
  | some e =>
    obtain ⟨p, k⟩ := e
    rw [ho] at hset
    have howner : setUpLimiter (1 / (c.freq : K)) none p = .ok l := hset
    obtain ⟨⟨lb, ub⟩, hlimits⟩ := Option.isSome_iff_exists.mp (limits_of_owner ho)
    rw [setUpLimiter, hlimits] at howner
    dsimp only at howner
    cases hcreate : JoyVelLimiter.create p.axis.length (1 / (c.freq : K)) lb ub with
    | error e =>
      rw [hcreate] at howner
      cases howner
    | ok l' =>
      rw [hcreate] at howner
      cases howner
      exact .inr ⟨p, k, lb, ub, l', rfl, hlimits, hcreate, rfl⟩

theorem limiter_congr {c c' : Config K} (hfreq : c.freq = c'.freq)
    (howner : (owner c.twistPubs).map Prod.fst = (owner c'.twistPubs).map Prod.fst)
    {m m' : MainLoop K} (hm : c.start = .ok m) (hm' : c'.start = .ok m') :
    m.limiter = m'.limiter := by
  rcases limiter_of_start hm with ⟨ho, hl⟩ | ⟨p, k, lb, ub, l, ho, hlimits, hcreate, hl⟩ <;>
    rcases limiter_of_start hm' with ⟨ho', hl'⟩ | ⟨p', k', lb', ub', l', ho', hlimits', hcreate', hl'⟩ <;>
    rw [ho, ho'] at howner
  · rw [hl, hl']
  · cases howner
  · cases howner
  · obtain rfl : p = p' := Option.some.inj howner
    cases hlimits.symm.trans hlimits'
    rw [hfreq, hcreate'] at hcreate
    cases hcreate
    rw [hl, hl']

section Shipped

def moveButtons : List FloatPub :=
  [⟨"/idle_mode", [7]⟩, ⟨"/zero_mode", [1]⟩, ⟨"/stand_mode", [0]⟩, ⟨"/walk_mode", [2]⟩]

def cmdVel (axis : List (String × ℕ)) : TwistPub ℚ :=
  ⟨"/cmd_vel", [4], axis, some ([-1/2, -3/10, -1/2], [1/2, 3/10, 1/2])⟩

def shipped : Config ℚ :=
  ⟨20, moveButtons, [cmdVel [("linear-x", 1), ("linear-y", 0), ("angular-z", 3)]], []⟩

def threeAxes : Config ℚ :=
  ⟨20, moveButtons, [cmdVel [("linear-x", 1), ("linear-y", 0), ("angular-z", 2)]], []⟩

def loopOf (c : Config ℚ) : MainLoop ℚ :=
  match c.start with
  | .ok m => m
  | .error _ => ⟨.zero ℚ, none, []⟩

theorem start_shipped : shipped.start = .ok (loopOf shipped) := rfl

theorem start_threeAxes : threeAxes.start = .ok (loopOf threeAxes) := rfl

end Shipped
end MybipedalDeploy.JoyStick
