import Mathlib.Data.List.Nodup
import MessageCatalogue.Candidate
import MessageCatalogue.Proofs.Distinct
import MessageCatalogue.Proofs.Text.Pieces

/-! The candidates for a code lose one of its inner segments after the other, and no two of them are the same. -/

namespace MessageCatalogue

variable {front : List (List Char)} {leaf : List Char}

/-- The segments of a code hold no dots. -/
theorem dot_notMem_of_splitOn {code : List Char} (split : code.splitOn '.' = front ++ [leaf]) :
    ∀ segment ∈ front ++ [leaf], '.' ∉ segment := by
  intro segment member
  rw [← split, ← Text.pieces_singleton] at member
  exact Text.notMem_of_mem_pieces member

/-- A code is cut in front of its last segment. -/
theorem segments_eq {code : List Char} (split : code.splitOn '.' = front ++ [leaf]) :
    segments code = (front, leaf) := by
  -- The segments joined by dots are the code again, and none of them holds a dot.
  have free := dot_notMem_of_splitOn split
  have joined : ['.'].intercalate (front ++ [leaf]) = code := split ▸ List.intercalate_splitOn '.'
  have last : '.' ∉ leaf := free leaf (by simp)
  by_cases single : front = []
  · -- Without a dot, the code is its only segment.
    subst single
    obtain rfl : leaf = code := by simpa using joined
    rw [segments, Text.cutLast?_eq_none last]
  · have others : ∀ segment ∈ front, '.' ∉ segment := fun segment member => free segment (by simp [member])
    rw [Text.intercalate_concat _ single, List.append_assoc, List.singleton_append] at joined
    rw [segments, ← joined, Text.cutLast?_append_cons _ last]
    simp only [Text.pieces_singleton, List.splitOn_intercalate '.' others single]

/-- A code with some of the segments in front of the last one has these segments. -/
theorem splitOn_qualified (free : ∀ segment ∈ front ++ [leaf], '.' ∉ segment) (kept : Nat) :
    (qualified (front.take kept) leaf).toList.splitOn '.' = front.take kept ++ [leaf] := by
  -- The dots that join the segments are the only ones.
  rw [qualified, String.toList_ofList]
  refine List.splitOn_intercalate '.' (fun segment member => free segment ?_) (by simp)
  rcases List.mem_append.mp member with inner | last
  · exact List.mem_append_left _ (List.mem_of_mem_take inner)
  · exact List.mem_append_right _ last

/-- A code is the first of those that keep its last segment and lose others. -/
theorem cons_shortenedCodes {code : String} (split : code.toList.splitOn '.' = front ++ [leaf]) :
    code :: shortenedCodes front leaf =
      (List.range (front.length + 1)).reverse.map fun kept => qualified (front.take kept) leaf := by
  -- The code keeps all of its segments.
  have whole : qualified (front.take front.length) leaf = code := by
    rw [List.take_length, qualified, ← split, List.intercalate_splitOn, String.ofList_toList]
  rw [List.range_succ, List.reverse_append, List.reverse_singleton, List.singleton_append, List.map_cons, whole,
    shortenedCodes]

/-- Each candidate from the code itself on has one segment less than the one in front of it. -/
theorem length_splitOn_shortenedCodes {code : String} (split : code.toList.splitOn '.' = front ++ [leaf]) :
    (code :: shortenedCodes front leaf).map (fun candidate => (candidate.toList.splitOn '.').length) =
      (List.range (front.length + 1)).reverse.map (· + 1) := by
  have free := dot_notMem_of_splitOn split
  rw [cons_shortenedCodes split, List.map_map]
  refine List.map_congr_left fun kept member => ?_
  rw [List.mem_reverse, List.mem_range] at member
  rw [Function.comp_apply, splitOn_qualified free, List.length_append, List.length_take, List.length_singleton,
    Nat.min_eq_left (by omega)]

/-- A code under a common namespace joins the candidates behind the others unless it is one of them. -/
theorem foldl_commonCode? (known : List String) (common : Option String) (leaf : List Char) :
    (commonCode? common leaf).toList.foldl appendNew known =
      known ++ ((common.filter (· ≠ "")).map (· ++ "." ++ String.ofList leaf)).toList.filter (· ∉ known) := by
  -- An empty namespace counts as none, so at most one code is left to join the others.
  have given : commonCode? common leaf = (common.filter (· ≠ "")).map (· ++ "." ++ String.ofList leaf) := by
    cases common with
    | none => rfl
    | some nameSpace => by_cases empty : nameSpace = "" <;> simp [commonCode?, Option.filter, empty]
  rw [given]
  cases (common.filter (· ≠ "")).map (· ++ "." ++ String.ofList leaf) with
  | none => simp
  | some shared => by_cases member : shared ∈ known <;> simp [appendNew, member]

/-- No code is left twice when namespace segments are dropped. -/
theorem nodup_shortenedCodes {code : String} (split : code.toList.splitOn '.' = front ++ [leaf]) :
    (code :: shortenedCodes front leaf).Nodup := by
  -- Codes with different numbers of segments are different.
  refine List.Nodup.of_map (fun candidate => (candidate.toList.splitOn '.').length) ?_
  rw [length_splitOn_shortenedCodes split]
  exact (List.nodup_reverse.mpr List.nodup_range).map fun _ _ => Nat.succ.inj

/-- The candidates for a code are those that keep its last segment and what the common namespace adds to them. -/
theorem candidateCodes_eq {code : String} (split : code.toList.splitOn '.' = front ++ [leaf]) (common : Option String) :
    candidateCodes code common = code :: shortenedCodes front leaf ++
      ((common.filter (· ≠ "")).map (· ++ "." ++ String.ofList leaf)).toList.filter
        (· ∉ code :: shortenedCodes front leaf) := by
  have all : (shortenedCodes front leaf).foldl appendNew [code] = code :: shortenedCodes front leaf :=
    foldl_appendNew_of_nodup (nodup_shortenedCodes split)
  -- Those that keep its last segment are distinct, so all of them join the list.
  rw [candidateCodes, segments_eq split]
  simp only [List.foldl_append, all, foldl_commonCode?]

/--
The candidates for a code are the code, the codes that keep ever fewer of its segments in front of the last one, and
the last one under the common namespace.

The codes in front of the common one differ in how many segments they have, and it is left out when it is one of them.
-/
theorem candidates_lose_inner_segments (code : String) (common : Option String) :
    ∃ front leaf, code.toList.splitOn '.' = front ++ [leaf] ∧
      let shorter := (List.range front.length).reverse.map fun kept =>
        String.ofList (['.'].intercalate (front.take kept ++ [leaf]))
      let shared := (common.filter (· ≠ "")).map (· ++ "." ++ String.ofList leaf)
      candidateCodes code common = code :: shorter ++ shared.toList.filter (· ∉ code :: shorter) ∧
        (code :: shorter).map (fun candidate => (candidate.toList.splitOn '.').length) =
          (List.range (front.length + 1)).reverse.map (· + 1) ∧
        (code :: shorter).Nodup ∧ (candidateCodes code common).Nodup := by
  -- Every code has a last segment, even if it is empty.
  obtain ⟨front, leaf, split⟩ : ∃ front leaf, code.toList.splitOn '.' = front ++ [leaf] :=
    (List.eq_nil_or_concat' _).resolve_left (List.splitOn_ne_nil '.' _)
  exact ⟨front, leaf, split, candidateCodes_eq split common, length_splitOn_shortenedCodes split,
    nodup_shortenedCodes split, nodup_foldl_appendNew _ (List.nodup_singleton code)⟩

example : candidateCodes "a..b" (some "a") = ["a..b", "a.b", "b"] := by decide

end MessageCatalogue
