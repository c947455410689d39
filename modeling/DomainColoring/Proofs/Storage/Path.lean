import DomainColoring.Storage.Path
import Mathlib

/-!
# Paths put together from names

A path that is put together from names leads through just these names, if none of them is empty,
holds a slash or is a single point.
-/

namespace DomainColoring.Path

variable {p directory : Path} {text name part : List Char} {front : List (List Char)}
  {last : String} {names : List String} {absolute : Bool}

theorem split_eq (name text : List Char) :
    split name text = text.splitOnPPrepend (· == '/') name := by
  induction text generalizing name with
  | nil => rfl
  | cons c rest inductionHypothesis =>
    rw [split, List.splitOnPPrepend_cons_eq_if, inductionHypothesis, inductionHypothesis,
      List.splitOnPPrepend_nil_right]
    simp only [beq_iff_eq]

theorem split_nil (text : List Char) : split [] text = text.splitOn '/' :=
  split_eq [] text

theorem slash_not_mem_split (whole : '/' ∉ name) (member : part ∈ split name text) :
    '/' ∉ part := by
  induction text generalizing name with
  | nil =>
    rw [split, List.mem_singleton] at member
    rwa [member, List.mem_reverse]
  | cons c rest inductionHypothesis =>
    rw [split] at member
    split at member
    · rcases List.mem_cons.mp member with rfl | later
      · rwa [List.mem_reverse]
      · exact inductionHypothesis List.not_mem_nil later
    · next noSlash =>
      refine inductionHypothesis (fun slash => ?_) member
      rcases List.mem_cons.mp slash with same | before
      · exact noSlash same.symm
      · exact whole before

theorem mem_of_mem_split {c : Char} (member : part ∈ split name text) (inside : c ∈ part) :
    c ∈ name ∨ c ∈ text := by
  induction text generalizing name with
  | nil =>
    rw [split, List.mem_singleton] at member
    rw [member, List.mem_reverse] at inside
    exact .inl inside
  | cons first rest inductionHypothesis =>
    rw [split] at member
    split at member
    · rcases List.mem_cons.mp member with rfl | later
      · exact .inl (List.mem_reverse.mp inside)
      · refine .inr (List.mem_cons_of_mem _ ?_)
        exact (inductionHypothesis later).resolve_left List.not_mem_nil
    · rcases inductionHypothesis member with inName | later
      · rcases List.mem_cons.mp inName with rfl | before
        · exact .inr List.mem_cons_self
        · exact .inl before
      · exact .inr (List.mem_cons_of_mem _ later)

/-- A text that can stand in a path as one name. -/
structure IsName (name : String) : Prop where
  written : name.toList ≠ []
  whole : '/' ∉ name.toList
  noPoint : name.toList ≠ ['.']

/-- A text with an ending that is more than points is a name and leads nowhere up. -/
theorem isName_append {stem ending : String} {letter : Char} (whole : '/' ∉ (stem ++ ending).toList)
    (ends : ending.toList.getLast? = some letter) (noPoint : letter ≠ '.') :
    IsName (stem ++ ending) ∧ stem ++ ending ≠ ".." := by
  have lastLetter : (stem ++ ending).toList.getLast? = some letter := by
    rw [String.toList_append, List.getLast?_append, ends, Option.some_or]
  refine ⟨⟨?_, whole, ?_⟩, ?_⟩
  · intro empty
    rw [empty] at lastLetter
    cases lastLetter
  · intro point
    rw [point] at lastLetter
    exact noPoint (Option.some.inj lastLetter).symm
  · intro wayUp
    rw [wayUp] at lastLetter
    exact noPoint (Option.some.inj lastLetter).symm

theorem isName_of_mem (member : last ∈ p.names) : IsName last := by
  obtain ⟨segment, inPath, rfl⟩ := List.mem_map.mp member
  obtain ⟨inSegments, noPoint⟩ := List.mem_filter.mp inPath
  obtain ⟨inText, written⟩ := List.mem_filter.mp inSegments
  refine ⟨?_, ?_, ?_⟩
  · simpa using written
  · rw [String.toList_ofList]
    exact slash_not_mem_split List.not_mem_nil inText
  · simpa using noPoint

theorem mem_text_of_mem_names {c : Char} (member : last ∈ p.names) (inside : c ∈ last.toList) :
    c ∈ p.text.toList := by
  obtain ⟨segment, inPath, rfl⟩ := List.mem_map.mp member
  obtain ⟨inText, -⟩ := List.mem_filter.mp (List.mem_filter.mp inPath).1
  rw [String.toList_ofList] at inside
  exact (mem_of_mem_split inText inside).resolve_left List.not_mem_nil

/-- Names from segments, none of which is a point. -/
theorem names_of_segments (segments : p.segments = names.map String.toList)
    (areNames : ∀ name ∈ names, IsName name) : p.names = names := by
  have noPoints : p.segments.filter (· ≠ ['.']) = p.segments := by
    refine List.filter_eq_self.mpr fun segment member => ?_
    rw [segments] at member
    obtain ⟨name, isListed, rfl⟩ := List.mem_map.mp member
    simpa using (areNames name isListed).noPoint
  rw [Path.names, noPoints, segments, List.map_map]
  exact List.map_id'' (fun name => String.ofList_toList) names

theorem entryName?_of_segments (segments : p.segments = front ++ [last.toList])
    (isName : IsName last) (noWayUp : last ≠ "..") : p.entryName? = some last := by
  have behind : p.segments.getLast? = some last.toList := by
    rw [segments, List.getLast?_concat]
  have lastName : p.names.getLast? = some last := by
    have noPoint : decide (last.toList ≠ ['.']) = true := decide_eq_true isName.noPoint
    rw [Path.names, segments, List.filter_append, List.filter_singleton, noPoint, List.map_append]
    simp
  rw [entryName?, behind, if_neg (fun point => isName.noPoint (Option.some.inj point)), fileName?,
    lastName]
  simpa using noWayUp

theorem segments_ofNames (areNames : ∀ name ∈ names, IsName name) :
    (ofNames absolute names).segments = names.map String.toList := by
  have divided : (split [] (String.intercalate "/" names).toList).filter (· ≠ []) =
      names.map String.toList := by
    rw [String.toList_intercalate, split_nil]
    cases names with
    | nil => rfl
    | cons name rest =>
      rw [show "/".toList = ['/'] from rfl, List.splitOn_intercalate '/' ?_ (by simp)]
      · refine List.filter_eq_self.mpr fun segment member => ?_
        obtain ⟨name, isListed, rfl⟩ := List.mem_map.mp member
        simpa using (areNames name isListed).written
      · intro segment member
        obtain ⟨name, isListed, rfl⟩ := List.mem_map.mp member
        exact (areNames name isListed).whole
  cases absolute with
  | false => simpa [segments, ofNames] using divided
  | true => simpa [segments, ofNames, split] using divided

theorem names_ofNames (areNames : ∀ name ∈ names, IsName name) :
    (ofNames absolute names).names = names :=
  names_of_segments (segments_ofNames areNames) areNames

/-- The text of a path through names ends in the last of them. -/
theorem text_ofNames_concat (absolute : Bool) (names : List String) (last : String) :
    ∃ before, (ofNames absolute (names ++ [last])).text.toList = before ++ last.toList := by
  rw [ofNames, String.toList_append]
  by_cases nothing : names = []
  · exact ⟨_, by rw [nothing, List.nil_append, String.intercalate_singleton]⟩
  · rw [String.intercalate_append_of_ne_nil nothing (List.cons_ne_nil _ _),
      String.intercalate_singleton, String.toList_append, ← List.append_assoc]
    exact ⟨_, rfl⟩

theorem endsInSlash_ofNames (isName : IsName last) :
    (ofNames absolute (names ++ [last])).endsInSlash = false := by
  obtain ⟨before, shape⟩ := text_ofNames_concat absolute names last
  rw [endsInSlash, shape, List.getLast?_append_of_ne_nil before isName.written,
    decide_eq_false_iff_not]
  exact fun slash => isName.whole (List.mem_of_getLast? slash)

theorem isEmpty_ofNames (isName : IsName last) :
    (ofNames absolute (names ++ [last])).text.isEmpty = false := by
  obtain ⟨before, shape⟩ := text_ofNames_concat absolute names last
  rw [← Bool.not_eq_true, String.isEmpty_iff, ← String.toList_eq_nil_iff, shape,
    List.append_eq_nil_iff]
  exact fun nothing => isName.written nothing.2

theorem isAbsolute_ofNames (areNames : ∀ name ∈ names, IsName name) :
    (ofNames absolute names).isAbsolute = absolute := by
  cases absolute with
  | true => simp [isAbsolute, ofNames]
  | false =>
    rw [isAbsolute, decide_eq_false_iff_not]
    cases names with
    | nil => simp [ofNames]
    | cons name rest =>
      have isName := areNames name List.mem_cons_self
      have first : (ofNames false (name :: rest)).text.toList.head? = name.toList.head? := by
        cases rest with
        | nil => simp [ofNames]
        | cons next others =>
          rw [ofNames, String.intercalate_cons_cons, String.toList_append, String.toList_append,
            String.toList_append, List.append_assoc]
          exact List.head?_append_of_ne_nil _ isName.written
      rw [first]
      exact fun slash => isName.whole (List.mem_of_head? slash)

/-- All characters of a path through names are slashes or stand in a name. -/
theorem mem_text_ofNames {c : Char} (member : c ∈ (ofNames absolute names).text.toList) :
    c = '/' ∨ ∃ name ∈ names, c ∈ name.toList := by
  rw [ofNames, String.toList_append, List.mem_append] at member
  rcases member with root | member
  · cases absolute with
    | true => exact .inl (List.mem_singleton.mp root)
    | false => cases root
  · induction names with
    | nil => cases member
    | cons name rest inductionHypothesis =>
      by_cases alone : rest = []
      · rw [alone, String.intercalate_singleton] at member
        exact .inr ⟨name, List.mem_cons_self, member⟩
      · rw [String.intercalate_cons_of_ne_nil alone, String.toList_append, List.mem_append,
          String.toList_append, List.mem_append] at member
        rcases member with (here | slash) | later
        · exact .inr ⟨name, List.mem_cons_self, here⟩
        · exact .inl (List.mem_singleton.mp slash)
        · refine (inductionHypothesis later).imp_right ?_
          rintro ⟨other, isListed, inside⟩
          exact ⟨other, List.mem_cons_of_mem _ isListed, inside⟩

/-- A file in a directory lies behind the names that lead to the directory. -/
theorem segments_join (isName : IsName last) :
    (directory.join last).segments = directory.segments ++ [last.toList] := by
  have own : (split [] last.toList).filter (· ≠ []) = [last.toList] := by
    rw [split_nil, List.splitOn_eq_singleton isName.whole]
    simpa using isName.written
  have behindSlash (front : List Char) :
      (split [] (front ++ '/' :: last.toList)).filter (· ≠ []) =
        (split [] front).filter (· ≠ []) ++ [last.toList] := by
    rw [split_nil, split_nil, List.splitOn_append_cons_self, List.filter_append,
      ← split_nil last.toList, own]
  unfold join
  split
  · next ready =>
    rcases Bool.or_eq_true _ _ ▸ ready with isEmpty | endsInSlash
    · have nothing : directory.text.toList = [] := by simpa using isEmpty
      simpa [segments, nothing, split] using own
    · obtain ⟨front, shape⟩ := List.getLast?_eq_some_iff.mp (of_decide_eq_true endsInSlash)
      have before := behindSlash front
      rw [segments, segments, String.toList_append, shape, List.append_assoc, List.singleton_append,
        before, split_nil, split_nil, List.splitOn_append_cons_self]
      simp
  · simpa [segments] using behindSlash directory.text.toList

theorem entryName?_join (isName : IsName last) (noWayUp : last ≠ "..") :
    (directory.join last).entryName? = some last :=
  entryName?_of_segments (segments_join isName) isName noWayUp

end DomainColoring.Path
