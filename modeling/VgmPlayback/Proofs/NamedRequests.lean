import Mathlib.Data.List.DropRight
import Mathlib.Data.List.TakeWhile
import Mathlib.Order.Bounds.Basic
import VgmPlayback.Console.UserCommand
import VgmPlayback.Proofs.Selection

/-!
# Requests by name

A text is trimmed three times between the user and a track: the line, the name behind `r:`, and both names that are
compared.  The key facts: a line that begins with `r:` requests the rest of it, trimmed (`UserCommand.ofLine?_request`),
and a request is met by the first track with that name (`Library.position?_eq_some_iff`).  So every track that has a
name can be asked for, whatever blanks the name begins or ends with, and it is that track that is found or an earlier
one of the same name (`Library.reached_by_name`).
-/

namespace VgmPlayback

namespace Text

/-- All characters of the text are blanks. -/
def Blank (s : String) : Prop := ∀ c ∈ s.toList, isBlank c = true

instance (s : String) : Decidable (Blank s) := List.decidableBAll (isBlank · = true) s.toList

/-- Blanks put around a text do not change what trimming leaves. -/
theorem trimChars_append_of_blank {u w : List Char} (hu : ∀ c ∈ u, isBlank c = true)
    (hw : ∀ c ∈ w, isBlank c = true) (cs : List Char) : trimChars (u ++ cs ++ w) = trimChars cs := by
  have hend : ∀ c ∈ w.reverse, isBlank c = true := fun c hc => hw c (List.mem_reverse.1 hc)
  unfold trimChars dropBlanks
  rw [List.append_assoc, List.dropWhile_append_of_pos hu, List.dropWhile_append]
  split
  · rename_i hnil
    rw [List.isEmpty_iff.1 hnil, List.dropWhile_eq_nil_iff.2 hw]
  · rw [List.reverse_append, List.dropWhile_append_of_pos hend]

/-- The text without the blanks at its end. -/
def trimEnd (cs : List Char) : List Char := (dropBlanks cs.reverse).reverse

/-- At its end a text is trimmed no further than to its last character that is no blank. -/
theorem trimEnd_cons {c : Char} (hc : isBlank c = false) (cs : List Char) : trimEnd (c :: cs) = c :: trimEnd cs := by
  have hkept : dropBlanks [c] = [c] := List.dropWhile_cons_of_neg (by rw [hc]; exact Bool.false_ne_true)
  have hend : dropBlanks (cs.reverse ++ [c]) = dropBlanks cs.reverse ++ [c] := by
    unfold dropBlanks at hkept ⊢
    rw [List.dropWhile_append]
    split
    · rename_i hnil
      rw [List.isEmpty_iff.1 hnil, hkept, List.nil_append]
    · rfl
  rw [trimEnd, List.reverse_cons, hend, List.reverse_append]
  rfl

theorem trimChars_cons {c : Char} (hc : isBlank c = false) (cs : List Char) : trimChars (c :: cs) = c :: trimEnd cs := by
  have hstart : dropBlanks (c :: cs) = c :: cs := List.dropWhile_cons_of_neg (by rw [hc]; exact Bool.false_ne_true)
  rw [trimChars, hstart, ← trimEnd_cons hc, trimEnd]

theorem exists_trimEnd_append (cs : List Char) : ∃ w, (∀ c ∈ w, isBlank c = true) ∧ cs = trimEnd cs ++ w :=
  ⟨cs.rtakeWhile isBlank, fun _ => List.mem_rtakeWhile_imp, List.rdropWhile_append_rtakeWhile.symm⟩

theorem trimChars_trimEnd (cs : List Char) : trimChars (trimEnd cs) = trimChars cs := by
  obtain ⟨w, hw, heq⟩ := exists_trimEnd_append cs
  conv => rhs; rw [heq]
  exact (trimChars_append_of_blank (u := []) (fun _ h => absurd h List.not_mem_nil) hw _).symm

/-- Trimming a second time changes nothing. -/
theorem trimChars_trimChars (cs : List Char) : trimChars (trimChars cs) = trimChars cs := by
  calc trimChars (trimChars cs) = trimChars (dropBlanks cs) := trimChars_trimEnd (dropBlanks cs)
    _ = trimEnd (dropBlanks (dropBlanks cs)) := rfl
    _ = trimChars cs := congrArg trimEnd (List.dropWhile_idempotent isBlank cs)

theorem trim_append_of_blank {u w : String} (hu : Blank u) (hw : Blank w) (s : String) : trim (u ++ s ++ w) = trim s := by
  rw [trim, String.toList_append, String.toList_append, trimChars_append_of_blank hu hw, trim]

theorem trim_trim (s : String) : trim (trim s) = trim s := by
  rw [trim, toList_trim, trimChars_trimChars, trim]

end Text

namespace UserCommand

open Text (Blank trim trimEnd)

/-- Blanks around a line do not count. -/
theorem ofLine?_of_blank {u w : String} (hu : Blank u) (hw : Blank w) (line : String) :
    ofLine? (u ++ line ++ w) = ofLine? line := by
  simp only [ofLine?, String.toList_append, Text.trimChars_append_of_blank hu hw]

/-- A line that begins with `r:` requests the rest of it. -/
theorem ofLine?_request (rest : String) : ofLine? ("r:" ++ rest) = some (.select (.request (trim rest))) := by
  have hline : ("r:" ++ rest).toList = 'r' :: ':' :: rest.toList := by rw [String.toList_append]; rfl
  have htrimmed : Text.trimChars ('r' :: ':' :: rest.toList) = 'r' :: ':' :: trimEnd rest.toList := by
    rw [Text.trimChars_cons (by decide), Text.trimEnd_cons (by decide)]
  rw [ofLine?, hline, htrimmed, ofChars?, Text.trimChars_trimEnd, trim]

end UserCommand

namespace Library

open Text (Blank trim)

/-- The places of the tracks with this name, blanks around it aside. -/
def placesOf (l : Library) (name : String) : Set Nat := {k | ∃ name', l.name? k = some name' ∧ trim name' = trim name}

variable {l : Library} {name : String} {i j k : Nat}

theorem names_getElem? (l : Library) (k : Nat) : l.names[k]? = l.tracks[k]?.map Track.name? := by
  rw [names, List.getElem?_map, Array.getElem?_toList]

theorem name?_eq_some_iff : l.name? k = some name ↔ l.names[k]? = some (some name) := by
  rw [names_getElem?, name?]
  cases l.tracks[k]? <;> simp

private theorem any_iff_mem_placesOf (hk : k < l.names.length) :
    (l.names[k].any fun name' => trim name' == trim name) = true ↔ k ∈ l.placesOf name := by
  simp only [placesOf, Set.mem_ofPred_eq, name?_eq_some_iff, List.getElem?_eq_getElem hk]
  cases l.names[k] <;> simp

/-- The position of a name is the first of the places where it stands. -/
theorem position?_eq_some_iff : l.position? name = some j ↔ IsLeast (l.placesOf name) j := by
  rw [position?, positionIn?, List.findIdx?_eq_some_iff_getElem]
  constructor
  · rintro ⟨hj, hnamed, hbefore⟩
    refine ⟨(any_iff_mem_placesOf hj).1 hnamed, fun k hk => Nat.le_of_not_lt fun hlt => ?_⟩
    exact hbefore k hlt ((any_iff_mem_placesOf (Nat.lt_trans hlt hj)).2 hk)
  · rintro ⟨hmem, hleast⟩
    obtain ⟨name', hname', -⟩ := id hmem
    have hj : j < l.names.length := (List.getElem?_eq_some_iff.1 (name?_eq_some_iff.1 hname')).1
    refine ⟨hj, (any_iff_mem_placesOf hj).2 hmem, fun k hk hany => ?_⟩
    exact Nat.not_le.2 hk (hleast ((any_iff_mem_placesOf (Nat.lt_trans hk hj)).1 hany))

theorem position?_trim (l : Library) (name : String) : l.position? (trim name) = l.position? name := by
  rw [position?, positionIn?, Text.trim_trim, position?, positionIn?]

/-- A name of a track is found, there or before. -/
theorem exists_position?_of_name? (h : l.name? i = some name) :
    ∃ j ≤ i, l.position? name = some j ∧ IsLeast (l.placesOf name) j := by
  cases hposition : l.position? name with
  | none =>
    have hmem : some name ∈ l.names := List.mem_of_getElem? (name?_eq_some_iff.1 h)
    exact absurd rfl (positionIn?_eq_none_iff.1 hposition name hmem)
  | some j =>
    have hleast := position?_eq_some_iff.1 hposition
    exact ⟨j, hleast.2 ⟨name, h, rfl⟩, rfl, hleast⟩

/-- A request that has a position moves the selector there, and takes no random words. -/
theorem select_request_of_position? (s : Selector) (h : l.position? name = some j) :
    Selector.select l.names (.request name) s = .ok j { s with current := j } := by
  have hposition : positionIn? l.names name = some j := h
  have hj := (List.findIdx?_eq_some_iff_findIdx_eq.1 hposition).1
  exact Selector.select_of_resolve_eq_ok (by omega) (by rw [Selector.resolve, hposition])

/-- Every track with a name is reached from a line: `r:` and the name, with any blanks in front of the line and on both
sides of the name, is the request for the trimmed name, and selecting by it comes to the first of the tracks whose
trimmed name is the same.  Blanks around a line change nothing about what it means. -/
theorem reached_by_name (l : Library) (s : Selector) :
    (∀ i name u w w', l.name? i = some name → Blank u → Blank w → Blank w' →
      UserCommand.ofLine? (u ++ "r:" ++ w ++ name ++ w') = some (.select (.request (trim name))) ∧
      ∃ j ≤ i, Selector.select l.names (.request (trim name)) s = .ok j { s with current := j } ∧
        IsLeast (l.placesOf name) j) ∧
    ∀ line u w, Blank u → Blank w → UserCommand.ofLine? (u ++ line ++ w) = UserCommand.ofLine? line := by
  refine ⟨fun i name u w w' hname hu hw hw' => ⟨?_, ?_⟩, fun line u w hu hw => UserCommand.ofLine?_of_blank hu hw line⟩
  · have hline : u ++ "r:" ++ w ++ name ++ w' = u ++ ("r:" ++ (w ++ name ++ w')) ++ "" := by
      simp only [String.append_assoc, String.append_empty]
    rw [hline, UserCommand.ofLine?_of_blank hu (by decide), UserCommand.ofLine?_request,
      Text.trim_append_of_blank hw hw']
  · obtain ⟨j, hle, hposition, hleast⟩ := exists_position?_of_name? hname
    rw [← position?_trim] at hposition
    exact ⟨j, hle, select_request_of_position? s hposition, hleast⟩

/-- Two tracks of one name, and two without one or with none but blanks. -/
private def twins : Library where
  tracks := #[⟨none, fun _ => .error .noSuchFile, 0⟩, .ofBytes " r: tune\t" [], .ofBytes "\u3000" [],
    .ofBytes "r: tune" []]

/-- The later of two tracks of one name is asked for, with other blanks than it has, and the earlier one is found; so is
the track whose name is a blank. -/
theorem reached_by_name_twins :
    UserCommand.ofLine? "\tr:\u3000r: tune\n" = some (.select (.request "r: tune")) ∧
    Selector.select twins.names (.request "r: tune") {} = .ok 1 { current := 1 } ∧
    UserCommand.ofLine? "r:\u3000" = some (.select (.request "")) ∧
    Selector.select twins.names (.request "") {} = .ok 2 { current := 2 } := by
  have htune : trim "r: tune" = "r: tune" := by decide +kernel
  have hblank : trim "\u3000" = "" := by decide +kernel
  have hfirst : twins.position? "r: tune" = some 1 := by decide +kernel
  have hthird : twins.position? "" = some 2 := by decide +kernel
  obtain ⟨hline, j, -, hselect, hleast⟩ := (reached_by_name twins {}).1 3 "r: tune" "\t" "\u3000" "\n" rfl
    (by decide) (by decide) (by decide)
  obtain ⟨hline', j', -, hselect', hleast'⟩ := (reached_by_name twins {}).1 2 "\u3000" "" "" "" rfl
    (by decide) (by decide) (by decide)
  rw [htune] at hline hselect
  rw [hblank] at hline' hselect'
  obtain rfl := hleast.unique (position?_eq_some_iff.1 hfirst)
  rw [← hblank, position?_trim] at hthird
  obtain rfl := hleast'.unique (position?_eq_some_iff.1 hthird)
  exact ⟨hline, hselect, hline', hselect'⟩

end Library

end VgmPlayback
