/-
  Dsp/Eq2Filters.lean --- which filters the channels of an eq2 go through.

  A channel has the filters that were appended to it, as far as there is room, and then identity
  filters.  What comes out does not depend on what the code is made for, and in a ring the
  identity filters do not show.
-/
import DragonDevice.Dsp.Eq2Channels

set_option autoImplicit false

namespace DragonDevice.Dsp

open DragonDevice.Lib

variable {F : Type}

/-! ## Columns -/

section Columns

variable {α : Type} (l : List (Stereo α)) (i : Nat) (a : α)

theorem map_modify_update (c : Channel) :
    (l.modify i fun row => Function.update row c a).map (· c) = (l.map (· c)).set i a := by
  induction l generalizing i with
  | nil => rw [List.modify_nil, List.map_nil, List.set_nil]
  | cons row l ih =>
      cases i with
      | zero =>
          rw [List.modify_zero_cons, List.map_cons, Function.update_self]
          rfl
      | succ i =>
          rw [List.modify_succ_cons, List.map_cons, ih]
          rfl

theorem map_modify_update_ne {c other : Channel} (h : other ≠ c) :
    (l.modify i fun row => Function.update row c a).map (· other) = l.map (· other) := by
  induction l generalizing i with
  | nil => rw [List.modify_nil]
  | cons row l ih =>
      cases i with
      | zero => rw [List.modify_zero_cons, List.map_cons, Function.update_of_ne h, List.map_cons]
      | succ i => rw [List.modify_succ_cons, List.map_cons, ih, List.map_cons]

/-- Two lists with the same channels. -/
theorem ext_channels : ∀ {l l' : List (Stereo α)}, (∀ c, l.map (· c) = l'.map (· c)) → l = l'
  | [], _, h => (List.map_eq_nil_iff.mp (h .left).symm).symm
  | _ :: _, [], h => List.map_eq_nil_iff.mp (h .left)
  | _ :: _, _ :: _, h =>
      List.cons_eq_cons.mpr ⟨funext fun c => (List.cons_eq_cons.mp (h c)).1,
        ext_channels fun c => (List.cons_eq_cons.mp (h c)).2⟩

end Columns

/-! ## The filters that were appended -/

/-- What was appended to a channel. -/
def appendedTo (appended : List (Channel × Biquad F)) (c : Channel) : List (Biquad F) :=
  (appended.filter (·.1 = c)).map (·.2)

theorem appendedTo_cons_self (next : Channel × Biquad F) (appended : List (Channel × Biquad F)) :
    appendedTo (next :: appended) next.1 = next.2 :: appendedTo appended next.1 := by
  have hself : decide (next.1 = next.1) = true := decide_eq_true rfl
  unfold appendedTo
  rw [List.filter_cons, hself, if_pos rfl, List.map_cons]

theorem appendedTo_cons_ne {next : Channel × Biquad F} {c : Channel} (h : c ≠ next.1)
    (appended : List (Channel × Biquad F)) :
    appendedTo (next :: appended) c = appendedTo appended c := by
  have hne : decide (next.1 = c) = false := decide_eq_false (Ne.symm h)
  unfold appendedTo
  rw [List.filter_cons, hne, if_neg Bool.false_ne_true]

/-- Each channel has its own filters, and then identity filters. -/
structure HasFilters [Zero F] [One F] (eq2 : Eq2State F) (own : Stereo (List (Biquad F))) :
    Prop where
  n : ∀ c, eq2.n c = (own c).length
  column : ∀ c, eq2.biquad.map (· c) =
    own c ++ List.replicate (maxBiquadsPerEq2 - (own c).length) (biquadSet Coefficients.none)

namespace HasFilters

variable [Zero F] [One F] {eq2 : Eq2State F} {own : Stereo (List (Biquad F))}

theorem length_le (h : HasFilters eq2 own) (c : Channel) : (own c).length ≤ maxBiquadsPerEq2 := by
  rw [← h.n c]
  exact eq2.fits c

theorem new : HasFilters (eq2New : Eq2State F) fun _ => [] where
  n _ := rfl
  column _ := List.map_replicate

theorem append (h : HasFilters eq2 own) (c : Channel) (biquad : Biquad F) :
    HasFilters (eq2AppendBiquadDirect eq2 c biquad).1
      (Function.update own c ((own c ++ [biquad]).take maxBiquadsPerEq2)) := by
  have hlen := h.n c
  unfold eq2AppendBiquadDirect
  split
  · rename_i hfull
    have htake : (own c ++ [biquad]).take maxBiquadsPerEq2 = own c :=
      List.take_left' (Nat.le_antisymm (h.length_le c) (hlen ▸ hfull))
    rw [htake, Function.update_eq_self]
    exact h
  · rename_i hroom
    have hlong : (own c ++ [biquad]).length = eq2.n c + 1 := by
      rw [List.length_append, List.length_singleton, hlen]
    rw [List.take_of_length_le (by omega)]
    constructor
    · intro other
      change Function.update eq2.n c (eq2.n c + 1) other = _
      by_cases hother : other = c
      · rw [hother, Function.update_self, Function.update_self, hlong]
      · rw [Function.update_of_ne hother, Function.update_of_ne hother]
        exact h.n other
    · intro other
      change (eq2.biquad.modify (eq2.n c) fun row => Function.update row c biquad).map
        (· other) = _
      by_cases hother : other = c
      · have hrest : maxBiquadsPerEq2 - (own c).length =
            maxBiquadsPerEq2 - (eq2.n c + 1) + 1 := by omega
        rw [hother, Function.update_self, hlong, map_modify_update, h.column c, hrest, hlen,
          List.set_append_right _ _ (Nat.le_refl _), Nat.sub_self, List.replicate_succ,
          List.set_cons_zero, List.append_assoc]
        rfl
      · rw [Function.update_of_ne hother, map_modify_update_ne _ _ _ hother]
        exact h.column other

/-- As many filters as there is room for. -/
theorem foldl (appended : List (Channel × Biquad F)) : ∀ {eq2 : Eq2State F}
    {own : Stereo (List (Biquad F))}, HasFilters eq2 own →
      HasFilters (appended.foldl (fun eq2 next => (eq2AppendBiquadDirect eq2 next.1 next.2).1) eq2)
        fun c => (own c ++ appendedTo appended c).take maxBiquadsPerEq2 := by
  induction appended with
  | nil =>
      intro eq2 own h
      have hown : (fun c => (own c ++ appendedTo [] c).take maxBiquadsPerEq2) = own := by
        funext c
        rw [appendedTo, List.filter_nil, List.map_nil, List.append_nil,
          List.take_of_length_le (h.length_le c)]
      rw [hown]
      exact h
  | cons next appended ih =>
      intro eq2 own h
      have hown : (fun c => (own c ++ appendedTo (next :: appended) c).take maxBiquadsPerEq2) =
          fun c => (Function.update own next.1
            ((own next.1 ++ [next.2]).take maxBiquadsPerEq2) c ++
              appendedTo appended c).take maxBiquadsPerEq2 := by
        funext c
        by_cases hc : c = next.1
        · rw [hc, Function.update_self, take_take_append, appendedTo_cons_self,
            List.append_cons]
        · rw [Function.update_of_ne hc, appendedTo_cons_ne hc]
      rw [hown]
      exact ih (h.append next.1 next.2)

theorem of_appended (appended : List (Channel × Biquad F)) :
    HasFilters (eq2Of appended) fun c => (appendedTo appended c).take maxBiquadsPerEq2 :=
  foldl appended new

theorem channel_eq (h : HasFilters eq2 own) (c : Channel) :
    ∃ k, eq2.channel c = own c ++ List.replicate k (biquadSet Coefficients.none) := by
  have hrows : (own c).length ≤ eq2.rows := by
    rw [← h.n c]
    unfold Eq2State.rows
    cases c with
    | left => split <;> omega
    | right => split <;> omega
  unfold Eq2State.channel
  rw [List.map_take, h.column c, List.take_append, List.take_of_length_le hrows,
    List.take_replicate]
  exact ⟨_, rfl⟩

end HasFilters

theorem channel_cleared [Zero F] [One F] {appended : List (Channel × Biquad F)}
    (hcleared : ∀ next ∈ appended, next.2.Cleared) (c : Channel) :
    ∀ q ∈ (eq2Of appended).channel c, q.Cleared := by
  obtain ⟨k, hk⟩ := (HasFilters.of_appended appended).channel_eq c
  intro q hq
  rw [hk] at hq
  rcases List.mem_append.mp hq with hown | hidentity
  · obtain ⟨next, hnext, rfl⟩ := List.mem_map.mp (List.mem_of_mem_take hown)
    exact hcleared next (List.mem_filter.mp hnext).1
  · rw [List.eq_of_mem_replicate hidentity]
    exact cleared_biquadSet _

/-! ## What comes out -/

theorem runBlocks_eq2Of [Zero F] [One F] [AddCommMagma F] [Sub F] [CommMagma F]
    {appended : List (Channel × Biquad F)} (hcleared : ∀ next ∈ appended, next.2.Cleared)
    (build : Build) (c : Channel) (blocks : List (List (Stereo F))) :
    (runBlocks (eq2Process build) (eq2Of appended) blocks).2.map (· c) =
      (cascade Biquad.next ((eq2Of appended).channel c) (blocks.flatten.map (· c))).2 := by
  rw [runBlocks_eq2Process, build.filters_of_cleared (channel_cleared hcleared c)]

/-- Whatever the code is made for, the same comes out.  Of the arithmetic it is used that factors
and summands can be exchanged, which floats allow. -/
theorem eq2_builds_agree [Zero F] [One F] [AddCommMagma F] [Sub F] [CommMagma F]
    {appended : List (Channel × Biquad F)} (hcleared : ∀ next ∈ appended, next.2.Cleared)
    (build : Build) (blocks : List (List (Stereo F))) :
    (runBlocks (eq2Process build) (eq2Of appended) blocks).2 =
      (runBlocks (eq2Process .plain) (eq2Of appended) blocks).2 :=
  ext_channels fun c => by
    rw [runBlocks_eq2Of hcleared build c, runBlocks_eq2Of hcleared .plain c]

/-- Two filters for the left channel, and one for the right. -/
def threeFilters : List (Channel × Biquad Int) :=
  [(.left, biquadSet ⟨1, 0, 0, -1, 0⟩), (.right, biquadSet ⟨1, -1, 0, 0, 0⟩),
    (.left, biquadSet ⟨0, 1, 0, 0, 0⟩)]

/-- A frame of two samples. -/
def frameOf (left right : Int) : Stereo Int
  | .left => left
  | .right => right

theorem threeFilters_cleared : ∀ next ∈ threeFilters, next.2.Cleared :=
  List.forall_mem_cons.mpr ⟨cleared_biquadSet _, List.forall_mem_cons.mpr ⟨cleared_biquadSet _,
    List.forall_mem_cons.mpr ⟨cleared_biquadSet _, List.forall_mem_nil _⟩⟩⟩

theorem eq2_builds_agree_threeFilters :
    (runBlocks (eq2Process .neon) (eq2Of threeFilters)
      [[frameOf 1 4], [frameOf 2 6, frameOf 3 9]]).2.map (· .right) = [4, 2, 3] := by
  rw [eq2_builds_agree threeFilters_cleared]
  rfl

section Ring

variable [CommRing F]

theorem transduce_identity (data : List F) : ∀ {q : Biquad F}, q.b0 = 1 → q.b1 = 0 → q.b2 = 0 →
    q.a1 = 0 → q.a2 = 0 → (transduce Biquad.next q data).2 = data := by
  induction data with
  | nil => exact fun _ _ _ _ _ => rfl
  | cons x data ih =>
      intro q h0 h1 h2 h3 h4
      have houtput : (Biquad.next q x).2 = x := by
        rw [Biquad.next, h0, h1, h2, h3, h4]
        simp only [one_mul, zero_mul, add_zero, sub_zero]
      exact congrArg₂ List.cons houtput (ih h0 h1 h2 h3 h4)

theorem cascade_identities (k : Nat) (data : List F) :
    (cascade Biquad.next (List.replicate k (biquadSet Coefficients.none)) data).2 = data := by
  induction k with
  | zero => rfl
  | succ k ih =>
      rw [List.replicate_succ, cascade, transduce_identity data rfl rfl rfl rfl rfl]
      exact ih

/-- Each channel of an eq2 goes through the first filters that were appended to it, one after the
other, however many the other channel has, however its input is cut into blocks, and whatever
the code is made for. -/
theorem eq2_channels_apart {appended : List (Channel × Biquad F)}
    (hcleared : ∀ next ∈ appended, next.2.Cleared) (build : Build) (c : Channel)
    (blocks : List (List (Stereo F))) :
    (runBlocks (eq2Process build) (eq2Of appended) blocks).2.map (· c) =
      (cascade Biquad.next ((appendedTo appended c).take maxBiquadsPerEq2)
        (blocks.flatten.map (· c))).2 := by
  obtain ⟨k, hk⟩ := (HasFilters.of_appended appended).channel_eq c
  rw [runBlocks_eq2Of hcleared build c, hk, cascade_append]
  exact cascade_identities k _

theorem eq2_channels_apart_threeFilters :
    (runBlocks (eq2Process .sse3) (eq2Of threeFilters)
      [[frameOf 1 4], [frameOf 2 6, frameOf 3 9]]).2.map (· .left) = [0, 1, 3] := by
  rw [eq2_channels_apart threeFilters_cleared]
  rfl

end Ring

end DragonDevice.Dsp
