import Mathlib.Algebra.Order.Ring.Rat
import MybipedalDeploy.JoyStick.JoyStickModule

/-!
# What twist publishers share

The run of a configuration beside that of one of its publishers alone, over the same
readings. Their states agree until another publisher is active, since all publishers
write the one message and move the one limiter. A publisher is known by its place; its
topics are its own, that is, no two publishers are configured with one topic name.
-/

namespace MybipedalDeploy.JoyStick
open Msg (Twist)

variable {K : Type}

/-- What the publisher in place `k` has sent on its own topic, and on its limiter topic. -/
def sentTwists (k : ℕ) (log : List (Output K)) : List (Twist K) :=
  log.filterMap fun
    | .twist k' _ msg => if k' = k then some msg else none
    | _ => none

def sentLimited (k : ℕ) (log : List (Output K)) : List (Twist K) :=
  log.filterMap fun
    | .limited k' _ msg => if k' = k then some msg else none
    | _ => none

def Config.only (c : Config K) (p : TwistPub K) : Config K := { c with twistPubs := [p] }

/-- No other twist publisher had its buttons pressed in the turns so far. -/
def Quiet (k : ℕ) (taken : List (Reading K × Turn K)) : Prop :=
  ∀ d p' k', (d, Turn.twist (p', k')) ∈ taken → k' ≠ k → d.pressed p'.buttons = false

/-- There is no limiter, so nothing is sent; or it is the publisher's own and only the
publisher has used it. -/
def Config.Untouched (c : Config K) (p : TwistPub K) (k : ℕ) (taken : List (Reading K × Turn K)) :
    Prop :=
  owner c.twistPubs = none ∨ owner c.twistPubs = some (p, k) ∧ Quiet k taken

def Undisturbed (c : Config K) (p : TwistPub K) (k : ℕ)
    (turns : List (Reading K × Turn K)) : Prop :=
  ∀ taken d rest, turns = taken ++ (d, .twist (p, k)) :: rest → d.pressed p.buttons = true →
    c.Untouched p k taken

def soloPlay [Field K] (solver : Solver K) (p : TwistPub K) (k : ℕ) (m : MainLoop K)
    (x : Reading K × Turn K) : MainLoop K :=
  match x.2 with
  | .twist (_, k') => if k' = k then m.twistTurn solver x.1 (p, 0) else m
  | _ => m.play solver x

section Sent
variable (k : ℕ) (log : List (Output K))

theorem sentTwists_append (log' : List (Output K)) :
    sentTwists k (log ++ log') = sentTwists k log ++ sentTwists k log' := List.filterMap_append

theorem sentLimited_append (log' : List (Output K)) :
    sentLimited k (log ++ log') = sentLimited k log ++ sentLimited k log' := List.filterMap_append

end Sent

structure Alongside (c : Config K) (p : TwistPub K) (k : ℕ) (taken : List (Reading K × Turn K))
    (m m' : MainLoop K) : Prop where
  twists : sentTwists k m.log = sentTwists 0 m'.log
  limited : sentLimited k m.log = sentLimited 0 m'.log
  silent : owner c.twistPubs = none → m.limiter = none
  same : c.Untouched p k taken → m.velMsgs = m'.velMsgs ∧ m.limiter = m'.limiter

theorem Config.Untouched.init {c : Config K} {p : TwistPub K} {k : ℕ}
    {taken : List (Reading K × Turn K)} {x : Reading K × Turn K}
    (h : c.Untouched p k (taken ++ [x])) : c.Untouched p k taken :=
  h.imp_right fun h => ⟨h.1, fun d p' k' hmem => h.2 d p' k' (List.mem_append_left _ hmem)⟩

section Alongside
variable {c : Config K} {p : TwistPub K} {k : ℕ} {taken : List (Reading K × Turn K)}
  {m m' : MainLoop K}

theorem Alongside.grow (h : Alongside c p k taken m m') (x : Reading K × Turn K) :
    Alongside c p k (taken ++ [x]) m m' :=
  ⟨h.twists, h.limited, h.silent, fun hu => h.same hu.init⟩

theorem Alongside.emit (h : Alongside c p k taken m m') {o o' : Output K}
    (htwist : sentTwists k [o] = sentTwists 0 [o'])
    (hlimited : sentLimited k [o] = sentLimited 0 [o']) :
    Alongside c p k taken (m.emit o) (m'.emit o') where
  twists := by
    simp only [MainLoop.emit, sentTwists_append, h.twists, htwist]
  limited := by
    simp only [MainLoop.emit, sentLimited_append, h.limited, hlimited]
  silent := h.silent
  same := h.same

theorem Alongside.write (h : Alongside c p k taken m m') (howner : owner c.twistPubs ≠ none)
    (v : Twist K) (l : Option (JoyVelLimiter K)) :
    Alongside c p k taken { m with velMsgs := v, limiter := l }
      { m' with velMsgs := v, limiter := l } :=
  ⟨h.twists, h.limited, fun hnone => absurd hnone howner, fun _ => ⟨rfl, rfl⟩⟩

theorem undisturbed_of_quiet {turns : List (Reading K × Turn K)}
    (ho : owner c.twistPubs = some (p, k)) (hq : Quiet k turns) : Undisturbed c p k turns := by
  intro taken d rest hsplit _
  refine .inr ⟨ho, fun d' p' k' hmem => hq d' p' k' ?_⟩
  rw [hsplit]
  exact List.mem_append_left _ hmem

variable [Field K] (solver : Solver K)

theorem twistTurn_of_not_pressed {d : Reading K} {e : TwistPub K × ℕ}
    (h : d.pressed e.1.buttons = false) : m.twistTurn solver d e = m := by
  unfold MainLoop.twistTurn
  cases hl : m.limiter with
  | none => rfl
  | some l => simp [h]

theorem Alongside.ownTurn (h : Alongside c p k taken m m') {d : Reading K}
    (hx : d.pressed p.buttons = true → c.Untouched p k taken) :
    Alongside c p k taken (m.twistTurn solver d (p, k)) (m'.twistTurn solver d (p, 0)) := by
  cases hpressed : d.pressed p.buttons with
  | false =>
    rw [twistTurn_of_not_pressed solver hpressed, twistTurn_of_not_pressed solver hpressed]
    exact h
  | true =>
    obtain ⟨hvel, hlimiter⟩ := h.same (hx hpressed)
    unfold MainLoop.twistTurn
    rw [hvel, hlimiter]
    cases hl : m'.limiter with
    | none => exact h
    | some l =>
      have howner : owner c.twistPubs ≠ none := fun hnone => by
        rw [h.silent hnone, hl] at hlimiter
        cases hlimiter
      simp only [hpressed, if_true]
      refine ((h.write howner _ _).emit ?_ ?_).emit ?_ ?_ <;> simp [sentTwists, sentLimited]

theorem Alongside.otherTurn (h : Alongside c p k taken m m') {d : Reading K} {p' : TwistPub K}
    {k' : ℕ} (hk : k' ≠ k) :
    Alongside c p k (taken ++ [(d, .twist (p', k'))]) (m.twistTurn solver d (p', k')) m' := by
  cases hpressed : d.pressed p'.buttons with
  | false =>
    rw [twistTurn_of_not_pressed solver hpressed]
    exact h.grow _
  | true =>
    unfold MainLoop.twistTurn
    cases hl : m.limiter with
    | none => exact h.grow _
    | some l =>
      have howner : owner c.twistPubs ≠ none := fun hnone => by
        rw [h.silent hnone] at hl
        cases hl
      have htouched : ¬ c.Untouched p k (taken ++ [(d, .twist (p', k'))]) := by
        rintro (hnone | ⟨-, hquiet⟩)
        · exact howner hnone
        · rw [hquiet d p' k' (by simp) hk] at hpressed
          cases hpressed
      simp only [hpressed, if_true]
      refine ⟨?_, ?_, fun hnone => absurd hnone howner, fun hu => absurd hu htouched⟩
      · simpa [MainLoop.emit, sentTwists, hk] using h.twists
      · simpa [MainLoop.emit, sentLimited, hk] using h.limited

theorem Alongside.next (h : Alongside c p k taken m m') (x : Reading K × Turn K)
    (hp : ∀ p', x.2 = .twist (p', k) → p' = p)
    (hx : x.2 = .twist (p, k) → x.1.pressed p.buttons = true → c.Untouched p k taken) :
    Alongside c p k (taken ++ [x]) (m.play solver x) (soloPlay solver p k m' x) := by
  obtain ⟨d, t⟩ := x
  cases t with
  | float q =>
    simp only [soloPlay, MainLoop.play, MainLoop.turn, MainLoop.floatTurn]
    split_ifs
    · exact (h.emit rfl rfl).grow _
    · exact h.grow _
  | call s =>
    simp only [soloPlay, MainLoop.play, MainLoop.turn, MainLoop.callTurn]
    split_ifs
    · exact (h.emit rfl rfl).grow _
    · exact h.grow _
  | twist e =>
    obtain ⟨p', k'⟩ := e
    simp only [soloPlay, MainLoop.play, MainLoop.turn]
    split_ifs with hk
    · subst hk
      obtain rfl := hp p' rfl
      exact (h.ownTurn solver (hx rfl)).grow _
    · exact h.otherTurn solver hk

theorem alongside_foldl (h : Alongside c p k [] m m') {turns : List (Reading K × Turn K)}
    (hp : ∀ d p', (d, Turn.twist (p', k)) ∈ turns → p' = p) (hturns : Undisturbed c p k turns) :
    Alongside c p k turns (turns.foldl (MainLoop.play solver) m)
      (turns.foldl (soloPlay solver p k) m') := by
  induction turns using List.reverseRecOn with
  | nil => exact h
  | append_singleton turns x ih =>
    have hprev := ih (fun d p' hmem => hp d p' (List.mem_append_left _ hmem))
      fun taken d rest hsplit => hturns taken d (rest ++ [x]) (by simp [hsplit])
    rw [List.foldl_append, List.foldl_append]
    obtain ⟨d, t⟩ := x
    refine hprev.next solver (d, t) (fun p' ht => hp d p' ?_) fun ht => ?_
    · simp only [← ht, List.mem_append, List.mem_singleton, or_true]
    · have ht' : t = .twist (p, k) := ht
      exact hturns turns d [] (by rw [ht'])

theorem foldl_zipIdx_at {σ α : Type} (g : σ → σ) (k : ℕ) (xs : List α) (n : ℕ) (s : σ) :
    (xs.zipIdx n).foldl (fun s e => if e.2 = k then g s else s) s =
      if n ≤ k ∧ k < n + xs.length then g s else s := by
  induction xs generalizing n s with
  | nil =>
    rw [if_neg (by simp)]
    rfl
  | cons x xs ih =>
    rw [List.zipIdx_cons, List.foldl_cons, ih, List.length_cons]
    grind

theorem foldl_cycle_only (hk : c.twistPubs[k]? = some p) (ds : List (Reading K)) (m : MainLoop K) :
    ds.foldl (MainLoop.cycle solver (c.only p)) m =
      (MainLoop.schedule c ds).foldl (soloPlay solver p k) m := by
  have hlen := (List.getElem?_eq_some_iff.mp hk).1
  induction ds generalizing m with
  | nil => rfl
  | cons d ds ih =>
    have hsplit : MainLoop.schedule c (d :: ds) =
        c.turns.map (Prod.mk d) ++ MainLoop.schedule c ds := List.flatMap_cons
    have hown : ∀ m : MainLoop K, c.twistPubs.zipIdx.foldl
        (fun m e => soloPlay solver p k m (d, .twist e)) m = m.twistTurn solver d (p, 0) :=
      fun m => (foldl_zipIdx_at (MainLoop.twistTurn solver d · (p, 0)) k _ 0 m).trans
        (if_pos ⟨Nat.zero_le k, by simpa using hlen⟩)
    rw [List.foldl_cons, ih, hsplit, List.foldl_append]
    refine congrArg (fun m => (MainLoop.schedule c ds).foldl (soloPlay solver p k) m) ?_
    rw [List.foldl_map, Config.turns, List.foldl_append, List.foldl_append, List.foldl_map,
      List.foldl_map, List.foldl_map, hown]
    rfl

theorem alongside_start (hk : c.twistPubs[k]? = some p) (hm : c.start = .ok m)
    (hm' : (c.only p).start = .ok m') : Alongside c p k [] m m' := by
  have hnone : owner c.twistPubs = none → m.limiter = none := by
    intro ho
    rcases limiter_of_start hm with ⟨-, hl⟩ | ⟨q, j, lb, ub, l, ho', -⟩
    · exact hl
    · rw [ho] at ho'
      cases ho'
  have hsame : c.Untouched p k [] → m.limiter = m'.limiter := by
    intro hu
    have hfreq : c.freq = (c.only p).freq := rfl
    have hpubs : (c.only p).twistPubs = [p] := rfl
    refine limiter_congr hfreq ?_ hm hm'
    rw [hpubs, owner_singleton]
    rcases hu with ho | ⟨ho, -⟩
    · simp [ho, limits_of_owner_eq_none ho hk]
    · have hlimits : p.limits.isSome = true := limits_of_owner ho
      simp [ho, hlimits]
  have hfresh : m.log = [] ∧ m'.log = [] ∧ m.velMsgs = m'.velMsgs := by
    obtain ⟨l, -, rfl⟩ := start_eq_ok hm
    obtain ⟨l', -, rfl⟩ := start_eq_ok hm'
    exact ⟨rfl, rfl, rfl⟩
  obtain ⟨hlog, hlog', hvel⟩ := hfresh
  exact ⟨by simp [hlog, hlog', sentTwists], by simp [hlog, hlog', sentLimited], hnone,
    fun hu => ⟨hvel, hsame hu⟩⟩

end Alongside

section Pair

def walk : TwistPub ℚ := ⟨"/cmd_vel", [4], [("linear-x", 0)], some ([-1/2], [1/2])⟩

def creep : TwistPub ℚ := ⟨"/cmd_vel_fine", [5], [("linear-x", 1)], some ([-1/2], [1/2])⟩

def pair : Config ℚ := ⟨20, [], [walk, creep], []⟩

def press (buttons : List ℕ) : Reading ℚ := ⟨⟨[1, 1], buttons⟩, .zero ℚ⟩

theorem walk_moves_creep :
    sentLimited 1 ([press [0, 0, 0, 0, 1, 0], press [0, 0, 0, 0, 0, 1]].foldl
        (MainLoop.cycle boxSolver pair) (loopOf pair)).log ≠
      sentLimited 0 ([press [0, 0, 0, 0, 1, 0], press [0, 0, 0, 0, 0, 1]].foldl
        (MainLoop.cycle boxSolver (pair.only creep)) (loopOf (pair.only creep))).log := by
  decide +kernel

def creeping : List (Reading ℚ) := List.replicate 3 (press [0, 0, 0, 0, 0, 1])

theorem quiet_creeping : Quiet 1 (MainLoop.schedule pair creeping) := by
  intro d p k hmem hk
  obtain ⟨hd, hturn⟩ := MainLoop.mem_schedule hmem
  have hplace := Config.getElem?_of_turn hturn
  obtain rfl : d = press [0, 0, 0, 0, 0, 1] := List.eq_of_mem_replicate hd
  match k, hk, hplace with
  | 0, _, hplace =>
    obtain rfl : walk = p := Option.some.inj hplace
    rfl
  | 1, hk, _ => exact absurd rfl hk

end Pair
end MybipedalDeploy.JoyStick
