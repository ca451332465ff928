/-
Module: Crum.Lib.Segments
Layer: Lib
Purpose: Texts built from parts with a separator that the parts do not contain, and how the parts are found
  again. Terminated parts may be empty and there may be none; joined parts are one level deeper the parts
  of their parts.
Imports: Mathlib
Trusted boundary: none
Main exports: terminated, segments, segments_terminated, intercalate_flatten,
  notMem_intercalate
Open obligations: none
-/
import Mathlib

namespace Segments

variable {β : Type*}

/-- Every part followed by the terminator. -/
def terminated (sep : β) (parts : List (List β)) : List β :=
  parts.flatMap fun part => part ++ [sep]

@[simp] theorem terminated_nil (sep : β) : terminated sep [] = [] := rfl

@[simp] theorem terminated_cons (sep : β) (part : List β) (parts : List (List β)) :
    terminated sep (part :: parts) = part ++ sep :: terminated sep parts := by
  simp [terminated]

/-- Two joined lists of parts, joined. -/
theorem intercalate_append (sep : List β) {parts more : List (List β)} (hparts : parts ≠ [])
    (hmore : more ≠ []) :
    sep.intercalate (parts ++ more) = sep.intercalate parts ++ sep ++ sep.intercalate more := by
  induction parts with
  | nil => exact absurd rfl hparts
  | cons part parts ih =>
      cases parts with
      | nil => rw [List.singleton_append, List.intercalate_cons_of_ne_nil hmore, List.intercalate_singleton]
      | cons next parts =>
          have htail := ih (List.cons_ne_nil next parts)
          rw [List.cons_append, List.intercalate_cons_of_ne_nil (by simp), htail,
            List.intercalate_cons_cons]
          simp only [List.append_assoc]

/-- Joining parts that were joined from their own parts joins all of those. -/
theorem intercalate_flatten (sep : List β) {groups : List (List (List β))}
    (hnonempty : ∀ group ∈ groups, group ≠ []) :
    sep.intercalate (groups.map sep.intercalate) = sep.intercalate groups.flatten := by
  induction groups with
  | nil => rfl
  | cons group groups ih =>
      have hgroup : group ≠ [] := hnonempty group (by simp)
      have htail := ih fun g hg => hnonempty g (by simp [hg])
      cases groups with
      | nil => simp
      | cons next groups =>
          have hnext : next ≠ [] := hnonempty next (by simp)
          have hrest : (next :: groups).flatten ≠ [] := by simp [hnext]
          rw [List.flatten_cons, intercalate_append sep hgroup hrest, ← htail, List.map_cons,
            List.intercalate_cons_of_ne_nil (by simp)]

/-- A joined text contains only what its parts and the separator contain. -/
theorem notMem_intercalate {sep : List β} {x : β} {parts : List (List β)} (hsep : x ∉ sep)
    (h : ∀ part ∈ parts, x ∉ part) : x ∉ sep.intercalate parts := by
  induction parts with
  | nil => simp
  | cons part parts ih =>
      have hpart : x ∉ part := h part (by simp)
      have htail := ih fun p hp => h p (by simp [hp])
      cases parts with
      | nil => simpa using hpart
      | cons next parts =>
          rw [List.intercalate_cons_cons]
          simp only [List.mem_append, not_or]
          exact ⟨⟨hpart, hsep⟩, htail⟩

section Split

variable [DecidableEq β]

/-- The parts of a text in which each part is followed by the terminator. -/
def segments (sep : β) (text : List β) : List (List β) := (text.splitOn sep).dropLast

/-- Splitting at the terminator leaves an empty part at the end. -/
theorem splitOn_terminated {sep : β} {parts : List (List β)} (h : ∀ part ∈ parts, sep ∉ part) :
    (terminated sep parts).splitOn sep = parts ++ [[]] := by
  induction parts with
  | nil => rfl
  | cons part parts ih =>
      have hpart : sep ∉ part := h part (by simp)
      rw [terminated_cons, List.splitOn_append_cons_self_of_not_mem hpart,
        ih fun p hp => h p (by simp [hp]), List.cons_append]

/-- Parts without the terminator are found again. -/
theorem segments_terminated {sep : β} {parts : List (List β)} (h : ∀ part ∈ parts, sep ∉ part) :
    segments sep (terminated sep parts) = parts := by
  rw [segments, splitOn_terminated h, List.dropLast_concat]

end Split

end Segments
