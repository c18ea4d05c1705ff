import Mathlib.Algebra.Order.Ring.Rat
import MybipedalDeploy.Oled.Text

/-!
# The user interface

The state machine of the display and the frame of each screen. Floats are exact
rationals; a text is its bytes. `Display` keeps beside the buffer what the panel was
sent: whether it is on, and its last picture.
-/

namespace MybipedalDeploy.Oled

inductive Event
  | encCw | encCcw | encPush | btnBack
  deriving DecidableEq

inductive UIState
  | sleeping | main | menu | screen
  deriving DecidableEq

abbrev Text := List (BitVec 8)

def ascii (s : String) : Text := s.toList.map fun c => BitVec.ofNat 8 c.toNat

def kMenuItems : List Text :=
  [ascii "1 Joint State", ascii "2 IMU State", ascii "3 Joystick", ascii "4 AimRT Log",
    ascii "5 SBC Status"]

structure UIContext where
  state : UIState
  menuSel : ℤ
  screenIdx : ℤ
  scrollOffset : ℤ
  lastActive : ℤ

structure JointInfo where
  name : Text
  pos : ℚ
  temp : ℚ

structure DataSnapshot where
  robotIp : Text
  joints : List JointInfo
  imuGx : ℚ
  imuGy : ℚ
  imuGz : ℚ
  imuAx : ℚ
  imuAy : ℚ
  imuAz : ℚ
  joyLx : ℚ
  joyLy : ℚ
  joyRx : ℚ
  joyRy : ℚ
  joyButtons : BitVec 16
  logLines : List Text
  cpuCorePct : List ℚ
  cpuTempC : ℚ
  ramTotalKb : BitVec 64
  ramAvailKb : BitVec 64

def DataSnapshot.initial : DataSnapshot :=
  ⟨ascii "0.0.0.0", [], 0, 0, 0, 0, 0, 0, 0, 0, 0, 0, 0, [], [], 0, 0, 0⟩

namespace UIContext

def start (now : ℤ) : UIContext := ⟨.sleeping, 0, 0, 0, now⟩

def touch (now : ℤ) (ctx : UIContext) : UIContext := { ctx with lastActive := now }

def isTimedOut (ctx : UIContext) (now timeout : ℤ) : Bool := now - ctx.lastActive ≥ timeout

end UIContext

structure Display where
  oled : OledDriver
  lit : Bool
  glass : OledDriver

namespace Display

def setSleep (sleep : Bool) (d : Display) : Display := { d with lit := !sleep }
def draw (f : OledDriver → OledDriver) (d : Display) : Display := { d with oled := f d.oled }
def display (d : Display) : Display := { d with glass := d.oled }

end Display

section Format

/-- The quotient of two natural numbers, a tie to the even one. -/
def roundedDiv (a b : ℕ) : ℕ :=
  if 2 * (a % b) < b then a / b
  else if b < 2 * (a % b) then a / b + 1
  else a / b + (a / b) % 2

def padLeft (fill : Char) (n : ℕ) (s : List Char) : List Char :=
  List.replicate (n - s.length) fill ++ s

/-- `std::format` with `f`: the sign of a positive number if `plus`, and `width`. -/
def formatFixed (plus : Bool) (width digits : ℕ) (x : ℚ) : Text :=
  let n := roundedDiv (x.num.natAbs * 10 ^ digits) x.den
  let sign := if x < 0 then ['-'] else if plus then ['+'] else []
  let whole := Nat.toDigits 10 (n / 10 ^ digits)
  let fraction :=
    if digits = 0 then [] else '.' :: padLeft '0' digits (Nat.toDigits 10 (n % 10 ^ digits))
  (padLeft ' ' width (sign ++ whole ++ fraction)).map fun c => BitVec.ofNat 8 c.toNat

def toInt (x : ℚ) : ℤ := x.num.tdiv x.den

def scaled (x : ℚ) (r : ℤ) : ℤ := toInt (x * (r : ℚ))

end Format

namespace OledDriver

def circle (cx cy r : ℤ) (on : Bool) (d : OledDriver) : OledDriver :=
  ((d.drawCircle (r.toNat + 2) cx cy r on).map Prod.snd).getD d

def centred (str : Text) (scale : ℕ) : ℤ := (128 - textWidth str scale).tdiv 2

def drawTitle (title : Text) (d : OledDriver) : OledDriver :=
  ((d.fillRect 0 0 128 10 true).drawString (centred title 1) 1 title false 1).drawHLine 0 10 128 true

def viewH : ℤ := 54
def trackY : ℤ := 10

def barHeight (contentH : ℤ) : ℤ := max 6 ((viewH * viewH).tdiv contentH)

def barTop (scroll contentH : ℤ) : ℤ :=
  trackY + (scroll * (viewH - barHeight contentH)).tdiv (contentH - viewH)

def drawScrollbar (scroll contentH : ℤ) (d : OledDriver) : OledDriver :=
  if contentH ≤ viewH then d
  else d.fillRect 126 (barTop scroll contentH) 2 (barHeight contentH) true

def renderMain (sd : DataSnapshot) (d : OledDriver) : OledDriver :=
  let line1 := ascii "MyBipedal"
  let line2 := ascii "By LongVu"
  let d := d.drawString (centred line1 2) 4 line1 true 2
  let d := d.drawString (centred line2 1) 24 line2 true 1
  let d := d.drawHLine 0 35 128 true
  let d := d.drawString 0 38 (ascii "IP:") true 1
  let d := d.drawString 18 38 sd.robotIp true 1
  d.drawString 0 54 (ascii "  Rotate enc -> Menu  ") true 1

def menuRow (sel : ℤ) (d : OledDriver) (e : Text × ℕ) : OledDriver :=
  let y : ℤ := 12 + e.2 * 10
  if e.2 = sel then (d.fillRect 0 y 128 10 true).drawString 2 (y + 1) e.1 false 1
  else d.drawString 2 (y + 1) e.1 true 1

def renderMenu (sel : ℤ) (d : OledDriver) : OledDriver :=
  kMenuItems.zipIdx.foldl (menuRow sel) (d.drawTitle (ascii "-- MENU --"))

def jointCell (scroll : ℤ) (d : OledDriver) (e : JointInfo × ℕ) : OledDriver :=
  let x : ℤ := e.2 % 2 * 64
  let y : ℤ := 13 + e.2 / 2 * 17 - scroll
  if y + 16 < 10 ∨ y > 63 then d
  else
    let d := d.drawString x y e.1.name true 1
    let d := d.drawString x (y + 8) (formatFixed false 0 1 e.1.pos) true 1
    d.drawString (x + 36) (y + 8) (formatFixed false 0 0 e.1.temp ++ ascii "C") true 1

def jointContent (sd : DataSnapshot) : ℤ := (sd.joints.length + 1) / 2 * 17

def renderJointState (sd : DataSnapshot) (scroll : ℤ) (d : OledDriver) : ℤ × OledDriver :=
  let d := d.drawTitle (ascii "Joint State")
  let contentH := jointContent sd
  let scroll := Clamp.clamp 0 (max 0 (contentH - 54)) scroll
  (scroll, ((sd.joints.take 12).zipIdx.foldl (jointCell scroll) d).drawScrollbar scroll contentH)

def imuRows (sd : DataSnapshot) : List (ℤ × Text) :=
  [(12, ascii "Gx" ++ formatFixed true 6 1 sd.imuGx), (22, ascii "Gy" ++ formatFixed true 6 1 sd.imuGy),
    (32, ascii "Gz" ++ formatFixed true 6 1 sd.imuGz), (42, ascii "Ax" ++ formatFixed true 5 2 sd.imuAx),
    (52, ascii "Ay" ++ formatFixed true 5 2 sd.imuAy), (62, ascii "Az" ++ formatFixed true 5 2 sd.imuAz)]

def textRow (scroll : ℤ) (d : OledDriver) (row : ℤ × Text) : OledDriver :=
  let sy := row.1 - scroll
  if sy ≥ 10 ∧ sy < 64 then d.drawString 0 sy row.2 true 1 else d

def dial (cx cy r : ℤ) (d : OledDriver) : OledDriver :=
  ((d.circle cx cy r true).drawHLine (cx - r) cy (2 * r + 1) true).drawVLine cx (cy - r) (2 * r + 1) true

def imuContent : ℤ := 60

def renderIMU (sd : DataSnapshot) (scroll : ℤ) (d : OledDriver) : ℤ × OledDriver :=
  let d := d.drawTitle (ascii "IMU State")
  let scroll := Clamp.clamp 0 (max 0 (imuContent - 54)) scroll
  let d := ((imuRows sd).foldl (textRow scroll) d).dial 100 38 22
  let nx := Clamp.clamp (-1) 1 (sd.imuGy / ((90 : ℕ) : ℚ))
  let ny := Clamp.clamp (-1) 1 (sd.imuGx / ((90 : ℕ) : ℚ))
  (scroll, (d.fillCircle (100 + scaled nx 19) (38 + scaled ny 19) 3 true).drawScrollbar scroll imuContent)

def drawBtn (sd : DataSnapshot) (x y : ℤ) (label : String) (bit : ℕ) (d : OledDriver) : OledDriver :=
  if sd.joyButtons.getLsbD bit then
    (d.fillRect (x - 1) (y - 1) (textWidth (ascii label) 1 + 2) 9 true).drawString x y (ascii label) false 1
  else d.drawString x y (ascii label) true 1

def renderJoystick (sd : DataSnapshot) (d : OledDriver) : OledDriver :=
  let d := d.drawTitle (ascii "Joystick")
  let d := (((d.drawBtn sd 1 12 "LB" 4).drawBtn sd 43 12 "Bk" 7).drawBtn sd 69 12 "St" 6).drawBtn sd 114 12 "RB" 5
  let d := (d.dial 22 32 14).fillCircle (22 + scaled sd.joyLx 11) (32 + scaled sd.joyLy 11) 3 true
  let d := (d.dial 82 22 8).fillCircle (82 + scaled sd.joyRx 6) (22 + scaled sd.joyRy 6) 2 true
  let d := (((d.drawBtn sd 107 28 "Y" 3).drawBtn sd 96 37 "X" 2).drawBtn sd 116 37 "B" 1).drawBtn sd 107 46 "A" 0
  let axes (name : String) (x y : ℚ) :=
    ascii name ++ formatFixed true 0 1 x ++ ascii " " ++ formatFixed true 0 1 y
  (d.drawString 0 56 (axes "L" sd.joyLx sd.joyLy) true 1).drawString 66 56 (axes "R" sd.joyRx sd.joyRy) true 1

def kVisRows : ℕ := 6

def maxLogScroll (total : ℕ) : ℤ := max 0 (total - kVisRows : ℤ)

def logStart (total : ℕ) (scroll : ℤ) : ℕ := (max 0 (total - kVisRows - scroll : ℤ)).toNat

def logWindow {α : Type*} (lines : List α) (scroll : ℤ) : List α :=
  (lines.drop (logStart lines.length scroll)).take kVisRows

def renderLog (sd : DataSnapshot) (scroll : ℤ) (d : OledDriver) : ℤ × OledDriver :=
  let d := d.drawTitle (ascii "AimRT Log")
  let total := sd.logLines.length
  let maxScroll := maxLogScroll total
  let scroll := Clamp.clamp 0 maxScroll scroll
  let d := (logWindow sd.logLines scroll).zipIdx.foldl
    (fun d (e : Text × ℕ) => d.drawString 0 (12 + e.2 * 9) (e.1.take 21) true 1) d
  if total > kVisRows then
    let barH : ℤ := max 6 ((kVisRows * 54 : ℤ).tdiv total)
    let barY : ℤ := 10 + if maxScroll > 0 then (scroll * (54 - barH)).tdiv maxScroll else 0
    (scroll, d.fillRect 126 barY 2 barH true)
  else (scroll, d)

def coreCell (scroll : ℤ) (d : OledDriver) (e : ℚ × ℕ) : OledDriver :=
  let x : ℤ := e.2 / 4 * 64
  let y : ℤ := 13 + e.2 % 4 * 8 - scroll
  if y < 10 ∨ y > 63 then d
  else (d.drawString x y (ascii "C" ++ (Nat.toDigits 10 e.2).map fun c => BitVec.ofNat 8 c.toNat)
    true 1).drawBar (x + 12) y 48 5 (toInt e.1) true

def sbcContent : ℤ := 58

def gb (kb : ℕ) : ℚ := (kb : ℚ) / ((1024 * 1024 : ℕ) : ℚ)

/-- The difference wraps where more is available than there is. -/
def ramPct (sd : DataSnapshot) : ℤ :=
  if sd.ramTotalKb ≠ 0 then 100 * ((sd.ramTotalKb - sd.ramAvailKb).toNat : ℤ) / (sd.ramTotalKb.toNat : ℤ)
  else 0

def renderSBC (sd : DataSnapshot) (scroll : ℤ) (d : OledDriver) : ℤ × OledDriver :=
  let d := d.drawTitle (ascii "SBC Status")
  let scroll := Clamp.clamp 0 (max 0 (sbcContent - 54)) scroll
  let d := (sd.cpuCorePct.take 8).zipIdx.foldl (coreCell scroll) d
  let yBot := 45 - scroll
  let used := if sd.ramTotalKb > sd.ramAvailKb then (sd.ramTotalKb - sd.ramAvailKb).toNat else 0
  let d :=
    if yBot ≥ 10 ∧ yBot < 64 then
      (d.drawString 0 yBot (ascii "T:" ++ formatFixed false 0 0 sd.cpuTempC ++ ascii "C") true 1).drawString
        48 yBot (ascii "RAM" ++ formatFixed false 0 1 (gb used) ++ ascii "/" ++
          formatFixed false 0 0 (gb sd.ramTotalKb.toNat) ++ ascii "G") true 1
    else d
  let d := if yBot + 9 ≥ 10 ∧ yBot + 9 < 64 then d.drawBar 0 (yBot + 9) 128 5 (ramPct sd) true else d
  (scroll, d.drawScrollbar scroll sbcContent)

end OledDriver

section Render
open OledDriver (clear renderMain renderMenu renderJointState renderIMU renderJoystick renderLog renderSBC)

/-- The frame of a screen on a cleared buffer, and the offset it was drawn at. -/
def renderScreen (screenIdx scroll : ℤ) (snap : DataSnapshot) : ℤ × OledDriver :=
  if screenIdx = 0 then renderJointState snap scroll (clear false)
  else if screenIdx = 1 then renderIMU snap scroll (clear false)
  else if screenIdx = 2 then (scroll, renderJoystick snap (clear false))
  else if screenIdx = 3 then renderLog snap scroll (clear false)
  else if screenIdx = 4 then renderSBC snap scroll (clear false)
  else (scroll, clear false)

/-- `renderUI` up to its `display`. -/
def renderFrame (ctx : UIContext) (snap : DataSnapshot) : UIContext × OledDriver :=
  match ctx.state with
  | .sleeping => (ctx, clear false)
  | .main => (ctx, renderMain snap (clear false))
  | .menu => (ctx, renderMenu ctx.menuSel (clear false))
  | .screen =>
    let r := renderScreen ctx.screenIdx ctx.scrollOffset snap
    ({ ctx with scrollOffset := r.1 }, r.2)

def renderUI (ctx : UIContext) (snap : DataSnapshot) (d : Display) : UIContext × Display :=
  let r := renderFrame ctx snap
  (r.1, (d.draw fun _ => r.2).display)

end Render

def onEvent (ev : Event) (ctx : UIContext) : UIContext :=
  match ctx.state, ev with
  | .main, .encCw | .main, .encCcw | .main, .encPush => { ctx with state := .menu }
  | .menu, .encCw => { ctx with menuSel := (ctx.menuSel + 1).tmod 5 }
  | .menu, .encCcw => { ctx with menuSel := (ctx.menuSel + 4).tmod 5 }
  | .menu, .encPush => { ctx with screenIdx := ctx.menuSel, state := .screen, scrollOffset := 0 }
  | .menu, .btnBack => { ctx with state := .main }
  | .screen, .encCw => { ctx with scrollOffset := ctx.scrollOffset + 8 }
  | .screen, .encCcw => { ctx with scrollOffset := max 0 (ctx.scrollOffset - 8) }
  | .screen, .btnBack | .screen, .encPush => { ctx with state := .menu, scrollOffset := 0 }
  | _, _ => ctx

/-- The event that wakes the display does nothing else. -/
def handleEvent (ev : Event) (now : ℤ) (ctx : UIContext) (d : Display) : UIContext × Display :=
  let ctx := ctx.touch now
  if ctx.state = .sleeping then ({ ctx with state := .main }, d.setSleep false)
  else (onEvent ev ctx, d)

end MybipedalDeploy.Oled
