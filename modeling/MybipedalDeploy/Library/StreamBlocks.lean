import MybipedalDeploy.Library.StreamScan

/-!
# Streams made of blocks

A sender puts a block behind another, each a frame with something before it that is not
one. If the scanner accepts no candidate that begins before a frame, it finds the frames
and no others; it may hold back the last of them for as long as it waits for the end of a
candidate before it.
-/

namespace MybipedalDeploy.StreamBlocks
open StreamScan (Scanner Verdict)

variable {α β γ : Type*}

/-- The blocks that lie wholly in the first `n` symbols. -/
def wholly (symbols : β → List α) : List β → ℕ → List β
  | [], _ => []
  | b :: bs, n =>
    if (symbols b).length ≤ n then b :: wholly symbols bs (n - (symbols b).length) else []

section Wholly
variable (symbols : β → List α)

theorem wholly_prefix (bs : List β) (n : ℕ) : wholly symbols bs n <+: bs := by
  induction bs generalizing n with
  | nil => exact List.prefix_rfl
  | cons b bs ih =>
    unfold wholly
    split_ifs
    · exact List.cons_prefix_cons.mpr ⟨rfl, ih _⟩
    · exact List.nil_prefix

theorem length_wholly_le (bs : List β) (n : ℕ) :
    ((wholly symbols bs n).flatMap symbols).length ≤ n := by
  induction bs generalizing n with
  | nil => exact Nat.zero_le n
  | cons b bs ih =>
    unfold wholly
    split_ifs with hb
    · have hbs := ih (n - (symbols b).length)
      rw [List.flatMap_cons, List.length_append]
      omega
    · exact Nat.zero_le n

theorem wholly_append_of_le (bs cs : List β) {n : ℕ} (h : (bs.flatMap symbols).length ≤ n) :
    wholly symbols (bs ++ cs) n = bs ++ wholly symbols cs (n - (bs.flatMap symbols).length) := by
  induction bs generalizing n with
  | nil => rfl
  | cons b bs ih =>
    rw [List.flatMap_cons, List.length_append] at h
    rw [List.cons_append, wholly, if_pos (by omega), ih (by omega), List.flatMap_cons,
      List.length_append, Nat.sub_sub]
    rfl

theorem wholly_append_of_lt (bs cs : List β) {n : ℕ} (h : n < (bs.flatMap symbols).length) :
    wholly symbols (bs ++ cs) n <+: bs ∧ wholly symbols (bs ++ cs) n ≠ bs := by
  induction bs generalizing n with
  | nil => exact absurd h (Nat.not_lt_zero n)
  | cons b bs ih =>
    rw [List.flatMap_cons, List.length_append] at h
    rw [List.cons_append, wholly]
    split_ifs with hb
    · obtain ⟨hinit, hne⟩ := ih (n := n - (symbols b).length) (by omega)
      exact ⟨List.cons_prefix_cons.mpr ⟨rfl, hinit⟩, fun heq => hne (List.cons.inj heq).2⟩
    · exact ⟨List.nil_prefix, (List.cons_ne_nil _ _).symm⟩

theorem wholly_flatMap (parts : γ → List β) (gs : List γ) (n : ℕ) :
    ∃ rest, wholly symbols (gs.flatMap parts) n =
        (wholly (fun g => (parts g).flatMap symbols) gs n).flatMap parts ++ rest ∧
      (rest = [] ∨ ∃ g ∈ gs, rest <+: parts g ∧ rest ≠ parts g) := by
  induction gs generalizing n with
  | nil => exact ⟨[], rfl, .inl rfl⟩
  | cons g gs ih =>
    rw [List.flatMap_cons, wholly]
    split_ifs with hg
    · obtain ⟨rest, hrest, hshort⟩ := ih (n - ((parts g).flatMap symbols).length)
      refine ⟨rest, ?_, hshort.imp_right ?_⟩
      · rw [wholly_append_of_le symbols _ _ hg, hrest, List.flatMap_cons, List.append_assoc]
      · exact fun ⟨g', hg', hpart⟩ => ⟨g', List.mem_cons_of_mem g hg', hpart⟩
    · have hshort := wholly_append_of_lt symbols (parts g) (gs.flatMap parts)
        (Nat.lt_of_not_le hg)
      exact ⟨_, rfl, .inr ⟨g, List.mem_cons_self, hshort⟩⟩

theorem groups_found (parts : γ → List β) {gs : List γ} {n : ℕ} {found : List β}
    (hfound : found <+: wholly symbols (gs.flatMap parts) n)
    (hgroups : (wholly (fun g => (parts g).flatMap symbols) gs n).flatMap parts <+: found) :
    ∃ rest, found = (wholly (fun g => (parts g).flatMap symbols) gs n).flatMap parts ++ rest ∧
      (rest = [] ∨ ∃ g ∈ gs, rest <+: parts g ∧ rest ≠ parts g) := by
  obtain ⟨rest, rfl⟩ := hgroups
  obtain ⟨more, hmore, hshort⟩ := wholly_flatMap symbols parts gs n
  rw [hmore, List.prefix_append_right_inj] at hfound
  refine ⟨rest, rfl, ?_⟩
  rcases hshort with rfl | ⟨g, hg, hpart, hne⟩
  · exact .inl (List.prefix_nil.mp hfound)
  · refine .inr ⟨g, hg, hfound.trans hpart, fun heq => hne ?_⟩
    exact hpart.eq_of_length_le (heq ▸ hfound.length_le)

end Wholly

section Frames
variable (ignored frame : β → List α)

def block (b : β) : List α := ignored b ++ frame b

theorem length_block (b : β) :
    (block ignored frame b).length = (ignored b).length + (frame b).length :=
  List.length_append

def accepts : Verdict → Bool
  | .accept _ => true
  | .wait | .skip | .reject _ => false

def Clear (S : Scanner α) : List β → Prop
  | [] => True
  | b :: bs =>
    (∀ i < (ignored b).length,
      accepts (S.look ((block ignored frame b ++ bs.flatMap (block ignored frame)).drop i)) = false) ∧
    Clear S bs

instance decidableClear (S : Scanner α) : (bs : List β) → Decidable (Clear ignored frame S bs)
  | [] => .isTrue trivial
  | _ :: bs =>
    have := decidableClear S bs
    inferInstanceAs (Decidable (_ ∧ _))

end Frames

section Scan
variable {S : Scanner α} {w : ℕ}

theorem look_extended {xs ys : List α} (h : xs <+: ys) (hwait : S.look xs ≠ .wait) :
    S.look ys = S.look xs := by
  obtain ⟨more, rfl⟩ := h
  exact S.stable more hwait

theorem cons_of_look {a : α} {p ys : List α} (hp : p <+: a :: ys)
    (hlook : S.look p ≠ .wait) : ∃ p', p = a :: p' ∧ p' <+: ys := by
  cases p with
  | nil => exact absurd S.look_nil hlook
  | cons b p' =>
    obtain ⟨rfl, hp'⟩ := List.cons_prefix_cons.mp hp
    exact ⟨p', rfl, hp'⟩

theorem frames_scan_block {ignored frame after p : List α}
    (hwaits : ∀ xs, S.look xs = .wait → xs.length ≤ w)
    (hframe : S.look frame = .accept frame.length)
    (hclear : ∀ i < ignored.length,
      accepts (S.look ((ignored ++ frame ++ after).drop i)) = false)
    (hp : p <+: ignored ++ frame ++ after) :
    (ignored.length + frame.length ≤ p.length ∧
      (S.scan p).frames =
        frame :: (S.scan (p.drop (ignored.length + frame.length))).frames) ∨
    ((S.scan p).frames = [] ∧
      (p.length < ignored.length + frame.length ∨ p.length < ignored.length + w)) := by
  induction ignored generalizing p with
  | nil =>
    rw [List.nil_append] at hp
    rw [List.length_nil, Nat.zero_add]
    by_cases hlong : frame.length ≤ p.length
    · obtain ⟨p', rfl⟩ := List.prefix_of_prefix_length_le (List.prefix_append _ _) hp hlong
      have hlook : S.look (frame ++ p') = .accept frame.length :=
        (S.stable p' (by rw [hframe]; exact Verdict.noConfusion)).trans hframe
      refine .inl ⟨hlong, ?_⟩
      rw [Scanner.scan_of_accept hlook, List.take_left]
      rfl
    · have hshort := List.prefix_of_prefix_length_le hp (List.prefix_append frame after) (by omega)
      have hwait : S.look p = .wait := by
        by_contra hlook
        have hle := S.accept_le ((look_extended hshort hlook).symm.trans hframe)
        exact hlong hle
      rw [Scanner.scan_of_wait hwait]
      exact .inr ⟨rfl, .inl (by omega)⟩
  | cons a ignored ih =>
    have hrest : ∀ {p'}, p' <+: ignored ++ frame ++ after → _ := fun {p'} => ih (p := p')
      (fun i hi => hclear (i + 1) (Nat.succ_lt_succ hi))
    by_cases hwait : S.look p = .wait
    · have hle := hwaits p hwait
      rw [Scanner.scan_of_wait hwait, List.length_cons]
      exact .inr ⟨rfl, .inr (by omega)⟩
    · obtain ⟨p', rfl, hp'⟩ := cons_of_look hp hwait
      -- No candidate here is accepted, so the scan goes on one symbol later.
      have hframes : (S.scan (a :: p')).frames = (S.scan p').frames := by
        cases hlook : S.look (a :: p') with
        | wait => exact absurd hlook hwait
        | skip => rw [Scanner.scan_of_skip hlook, List.tail_cons]
        | reject n =>
          rw [Scanner.scan_of_reject hlook, List.tail_cons]
          rfl
        | accept n =>
          have haccepts := hclear 0 (Nat.succ_pos _)
          rw [List.drop_zero, look_extended hp hwait, hlook] at haccepts
          cases haccepts
      rw [hframes, List.length_cons, List.length_cons]
      rcases hrest hp' with ⟨hlong, hscan⟩ | ⟨hscan, hshort⟩
      · refine .inl ⟨by omega, ?_⟩
        rw [hscan, Nat.add_right_comm, List.drop_succ_cons]
      · exact .inr ⟨hscan, by omega⟩

variable (ignored frame : β → List α) (w : ℕ)

/-- Found is each block whose frame is there with as much as the scanner may wait for. -/
def Reached (bs found : List β) (n : ℕ) : Prop :=
  ∀ xs b, xs ++ [b] <+: bs → (xs.flatMap (block ignored frame)).length +
    (ignored b).length + max (frame b).length w ≤ n → xs ++ [b] <+: found

variable {ignored frame w}

theorem Reached.whole_blocks {bs found : List β} {n m lag : ℕ}
    (h : Reached ignored frame w bs found n) (hm : m + lag ≤ n)
    (hlag : ∀ b ∈ bs, w ≤ (frame b).length + lag) :
    wholly (block ignored frame) bs m <+: found := by
  have hinit := wholly_prefix (block ignored frame) bs m
  have hlength := length_wholly_le (block ignored frame) bs m
  rcases List.eq_nil_or_concat' (wholly (block ignored frame) bs m) with hnil | ⟨xs, b, hlast⟩
  · rw [hnil]
    exact List.nil_prefix
  · rw [hlast] at hinit hlength ⊢
    have hb := hlag b (hinit.subset (by simp))
    rw [List.flatMap_append, List.flatMap_singleton, List.length_append, length_block] at hlength
    exact h xs b hinit (by omega)

theorem Reached.whole_groups {parts : γ → List β} {gs : List γ} {found : List β} {n : ℕ}
    (h : Reached ignored frame w (gs.flatMap parts) found n)
    (hlast : ∀ g ∈ gs, ∃ xs b, parts g = xs ++ [b] ∧ w ≤ (frame b).length) :
    (wholly (fun g => (parts g).flatMap (block ignored frame)) gs n).flatMap parts <+: found := by
  have hinit := wholly_prefix (fun g => (parts g).flatMap (block ignored frame)) gs n
  have hlength := length_wholly_le (fun g => (parts g).flatMap (block ignored frame)) gs n
  rw [← List.flatMap_assoc] at hlength
  rcases List.eq_nil_or_concat'
    (wholly (fun g => (parts g).flatMap (block ignored frame)) gs n) with hnil | ⟨hs, g, hwhole⟩
  · rw [hnil]
    exact List.nil_prefix
  · obtain ⟨xs, b, hparts, hw⟩ := hlast g (hinit.subset (by rw [hwhole]; simp))
    have hall : (wholly (fun g => (parts g).flatMap (block ignored frame)) gs n).flatMap parts =
        (hs.flatMap parts ++ xs) ++ [b] := by
      rw [hwhole, List.flatMap_append, List.flatMap_singleton, hparts, List.append_assoc]
    obtain ⟨more, hmore⟩ := hinit
    have hfirst : (hs.flatMap parts ++ xs) ++ [b] <+: gs.flatMap parts :=
      ⟨more.flatMap parts, by rw [← hall, ← List.flatMap_append, hmore]⟩
    rw [hall] at hlength ⊢
    rw [List.flatMap_append, List.flatMap_singleton, List.length_append, length_block] at hlength
    exact h _ b hfirst (by omega)

/-- The frames found are those of the first blocks; a whole block is among them, unless
the scanner may still wait before its frame. -/
theorem frames_scan (hwaits : ∀ xs, S.look xs = .wait → xs.length ≤ w) {bs : List β}
    (hframe : ∀ b ∈ bs, S.look (frame b) = .accept (frame b).length)
    (hclear : Clear ignored frame S bs) {p : List α}
    (hp : p <+: bs.flatMap (block ignored frame)) :
    ∃ found, (S.scan p).frames = found.map frame ∧
      found <+: wholly (block ignored frame) bs p.length ∧
      Reached ignored frame w bs found p.length := by
  induction bs generalizing p with
  | nil =>
    obtain rfl := List.prefix_nil.mp hp
    rw [Scanner.scan_of_wait S.look_nil]
    refine ⟨[], rfl, List.nil_prefix, fun xs b hxs => absurd (List.prefix_nil.mp hxs) ?_⟩
    exact List.append_ne_nil_of_right_ne_nil _ (List.cons_ne_nil _ _)
  | cons b bs ih =>
    rw [List.flatMap_cons] at hp
    have hlength := length_block ignored frame b
    rcases frames_scan_block hwaits (hframe b List.mem_cons_self) hclear.1 hp with
      ⟨hlong, hscan⟩ | ⟨hscan, hshort⟩
    · obtain ⟨p', rfl⟩ := List.prefix_of_prefix_length_le (List.prefix_append _ _) hp
        (hlength ▸ hlong)
      rw [← hlength, List.drop_left] at hscan
      obtain ⟨found, hfound, hwhole, hreached⟩ :=
        ih (fun c hc => hframe c (List.mem_cons_of_mem b hc)) hclear.2
          ((List.prefix_append_right_inj _).mp hp)
      refine ⟨b :: found, by rw [hscan, hfound, List.map_cons], ?_, fun xs c hxs hlen => ?_⟩
      · rw [wholly, if_pos (by rw [List.length_append]; omega), List.length_append,
          Nat.add_sub_cancel_left]
        exact List.cons_prefix_cons.mpr ⟨rfl, hwhole⟩
      · cases xs with
        | nil =>
          obtain ⟨rfl, -⟩ := List.cons_prefix_cons.mp hxs
          exact List.cons_prefix_cons.mpr ⟨rfl, List.nil_prefix⟩
        | cons x xs =>
          obtain ⟨rfl, htail⟩ := List.cons_prefix_cons.mp hxs
          rw [List.flatMap_cons, List.length_append, List.length_append] at hlen
          exact List.cons_prefix_cons.mpr ⟨rfl, hreached xs c htail (by omega)⟩
    · refine ⟨[], hscan, List.nil_prefix, fun xs c hxs hlen => ?_⟩
      cases xs with
      | nil =>
        obtain ⟨rfl, -⟩ := List.cons_prefix_cons.mp hxs
        rw [List.flatMap_nil, List.length_nil] at hlen
        omega
      | cons x xs =>
        obtain ⟨rfl, -⟩ := List.cons_prefix_cons.mp hxs
        rw [List.flatMap_cons, List.length_append] at hlen
        omega

end Scan
end MybipedalDeploy.StreamBlocks
