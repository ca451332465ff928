/-
Module: Crum.Lib.SlidingWindow
Layer: Lib
Purpose: A collection that items enter one by one, each of them dropping whatever lies at or below its
  threshold. If thresholds never fall, the last one decides what is left; if levels never fall either, what
  is left are the last items; if levels rise, no more are left than there are integers above the threshold.
Imports: Mathlib
Trusted boundary: none
Main exports: window, window_snoc, mem_of_mem_window, window_eq_filter, window_suffix, length_window_le
Open obligations: none
-/
import Mathlib

namespace SlidingWindow

variable {ι : Type} (level threshold : ι → Int)

/-- What is left of the items that have entered, oldest first. -/
def window (items : List ι) : List ι :=
  items.foldl (fun kept item => (kept ++ [item]).filter fun x => threshold item < level x) []

theorem window_snoc (past : List ι) (item : ι) :
    window level threshold (past ++ [item]) =
      (window level threshold past ++ [item]).filter fun x => threshold item < level x := by
  rw [window, List.foldl_append]
  rfl

variable {level threshold}

theorem mem_of_mem_window {items : List ι} {x : ι} (h : x ∈ window level threshold items) : x ∈ items := by
  induction items using List.reverseRecOn with
  | nil => exact h
  | append_singleton past item ih =>
      rw [window_snoc, List.mem_filter, List.mem_append] at h
      rw [List.mem_append]
      exact h.1.imp_left ih

/-- When thresholds never fall, only the last one matters. -/
theorem window_eq_filter {past : List ι} {last : ι}
    (hmono : (past ++ [last]).Pairwise fun earlier later => threshold earlier ≤ threshold later) :
    window level threshold (past ++ [last]) =
      (past ++ [last]).filter fun x => threshold last < level x := by
  induction past using List.reverseRecOn generalizing last with
  | nil => rfl
  | append_singleton front middle ih =>
      rw [List.pairwise_append] at hmono
      rcases hmono with ⟨hpast, -, hlast⟩
      have hle : threshold middle ≤ threshold last := hlast middle (by simp) last (by simp)
      rw [window_snoc, ih hpast, List.filter_append, List.filter_append (front ++ [middle]),
        List.filter_filter]
      congr 1
      apply List.filter_congr
      intro x _
      rw [← Bool.decide_and, decide_eq_decide]
      exact ⟨fun h => h.1, fun h => ⟨h, hle.trans_lt h⟩⟩

/-- In a list whose levels never fall, those above a bound come last. -/
theorem filter_suffix {items : List ι} {bound : Int}
    (hlevels : items.Pairwise fun earlier later => level earlier ≤ level later) :
    (items.filter fun x => bound < level x) <:+ items := by
  induction items with
  | nil => exact List.suffix_rfl
  | cons x items ih =>
      rw [List.pairwise_cons] at hlevels
      by_cases hx : bound < level x
      · have hall : ((x :: items).filter fun y => bound < level y) = x :: items := by
          rw [List.filter_eq_self]
          intro y hy
          rcases List.mem_cons.mp hy with rfl | hy
          · exact decide_eq_true hx
          · exact decide_eq_true (hx.trans_le (hlevels.1 y hy))
        rw [hall]
      · rw [List.filter_cons_of_neg (by simpa using hx)]
        exact (ih hlevels.2).trans (List.suffix_cons x items)

/-- When neither thresholds nor levels ever fall, the items that are left are the last ones. -/
theorem window_suffix {items : List ι}
    (hmono : items.Pairwise fun earlier later => threshold earlier ≤ threshold later)
    (hlevels : items.Pairwise fun earlier later => level earlier ≤ level later) :
    window level threshold items <:+ items := by
  rcases List.eq_nil_or_concat items with rfl | ⟨past, last, rfl⟩
  · exact List.suffix_rfl
  · rw [List.concat_eq_append] at hmono hlevels ⊢
    rw [window_eq_filter hmono]
    exact filter_suffix hlevels

/-- When levels rise and the last item is at most `span` above its threshold, at most `span` items are
left. -/
theorem length_window_le {past : List ι} {last : ι} {span : Nat}
    (hmono : (past ++ [last]).Pairwise fun earlier later => threshold earlier ≤ threshold later)
    (hlevels : (past ++ [last]).Pairwise fun earlier later => level earlier < level later)
    (hspan : level last ≤ threshold last + span) :
    (window level threshold (past ++ [last])).length ≤ span := by
  rw [window_eq_filter hmono]
  have hdistinct : (((past ++ [last]).filter fun x => threshold last < level x).map level).Nodup := by
    rw [List.Nodup, List.pairwise_map]
    exact (hlevels.filter _).imp ne_of_lt
  have hrange : (((past ++ [last]).filter fun x => threshold last < level x).map level).toFinset ⊆
      Finset.Ioc (threshold last) (threshold last + span) := by
    intro l hl
    rcases List.mem_map.mp (List.mem_toFinset.mp hl) with ⟨x, hx, rfl⟩
    rcases List.mem_filter.mp hx with ⟨hmem, habove⟩
    rw [Finset.mem_Ioc]
    refine ⟨of_decide_eq_true habove, ?_⟩
    rcases List.mem_append.mp hmem with hpast | hlast
    · exact ((List.pairwise_append.mp hlevels).2.2 x hpast last (by simp)).le.trans hspan
    · rw [List.mem_singleton.mp hlast]
      exact hspan
  have hcard := Finset.card_le_card hrange
  rw [List.toFinset_card_of_nodup hdistinct, List.length_map, Int.card_Ioc] at hcard
  simpa using hcard

end SlidingWindow
