import SqlFilter.Select.Basic
import SqlFilter.Proofs.Scanning
import Std.Data.String.ToNat

/-!
The search for a free name, candidate by candidate. Candidates of one stem differ, so each that is
taken leaves one taken name less for those behind it: the search ends, at the first that is free.
-/
namespace SqlFilter.Select

variable {stem : String} {taken : List String} {i : Nat}

theorem numbered_injective (stem : String) : Function.Injective (numbered stem) := by
  intro i j h
  have h' : toString i = toString j := (String.append_right_inj _).1 h
  exact Nat.repr_injective h'

/-- The taken names that no candidate before index `i` is. -/
def untried (stem : String) (taken : List String) (i : Nat) : Finset String :=
  taken.toFinset \ (Finset.range i).image (numbered stem)

@[simp] theorem untried_zero (stem : String) (taken : List String) :
    untried stem taken 0 = taken.toFinset := by
  simp [untried]

theorem card_untried_succ (h : numbered stem i ∈ taken) :
    (untried stem taken (i + 1)).card + 1 = (untried stem taken i).card := by
  have hmem : numbered stem i ∈ untried stem taken i := by
    have hnew : ∀ j < i, numbered stem j ≠ numbered stem i := by
      intro j hj he
      exact Nat.ne_of_lt hj (numbered_injective stem he)
    simpa [untried, h] using hnew
  have herase : untried stem taken (i + 1) = (untried stem taken i).erase (numbered stem i) := by
    rw [untried, Finset.range_add_one, Finset.image_insert, Finset.sdiff_insert]
    rfl
  rw [herase, Finset.card_erase_add_one hmem]

/-- The candidates that the search looks at from an index on. It goes on while they are taken. -/
def tried (stem : String) (taken : List String) (i : Nat) : List String :=
  if numbered stem i ∈ taken then numbered stem i :: tried stem taken (i + 1)
  else [numbered stem i]
  termination_by (untried stem taken i).card
  decreasing_by
    rename_i h
    have := card_untried_succ h
    omega

/-- From any index on the search ends at the first candidate that is free. -/
theorem exists_tried_eq (stem : String) (taken : List String) (i : Nat) :
    ∃ n ≤ (untried stem taken i).card,
      tried stem taken i = (List.range' i (n + 1)).map (numbered stem) ∧
      numbered stem (i + n) ∉ taken ∧ ∀ j, i ≤ j → j < i + n → numbered stem j ∈ taken := by
  fun_induction tried stem taken i with
  | case1 i h ih =>
    obtain ⟨n, hn, htried, hfree, htaken⟩ := ih
    have hcard := card_untried_succ h
    refine ⟨n + 1, by omega, ?_, ?_, fun j hij hj => ?_⟩
    · rw [htried]
      rfl
    · rwa [show i + (n + 1) = i + 1 + n by omega]
    · by_cases he : j = i
      · rwa [he]
      · exact htaken j (by omega) (by omega)
  | case2 i h =>
    exact ⟨0, Nat.zero_le _, rfl, h, fun j hij hj => by omega⟩

theorem nextFreeName_eq_numbered {name : String} (hi : i ≤ taken.length)
    (hfree : numbered (nameStem name) i ∉ taken)
    (htaken : ∀ j < i, numbered (nameStem name) j ∈ taken) :
    nextFreeName name taken = numbered (nameStem name) i := by
  have hfind : (List.range (taken.length + 1)).find?
      ((fun n => decide (n ∉ taken)) ∘ numbered (nameStem name)) = some i := by
    rw [List.find?_range_eq_some]
    refine ⟨by simpa using hfree, by simp; omega, fun j hj => by simpa using htaken j hj⟩
  rw [nextFreeName, List.find?_map, hfind]
  rfl

theorem exists_nextFreeName_least (name : String) (taken : List String) :
    ∃ i ≤ taken.toFinset.card,
      tried (nameStem name) taken 0 = (List.range (i + 1)).map (numbered (nameStem name)) ∧
      nextFreeName name taken = numbered (nameStem name) i ∧
      numbered (nameStem name) i ∉ taken ∧ ∀ j < i, numbered (nameStem name) j ∈ taken := by
  obtain ⟨i, hi, htried, hfree, htaken⟩ := exists_tried_eq (nameStem name) taken 0
  rw [Nat.zero_add] at hfree htaken
  rw [untried_zero] at hi
  have htaken : ∀ j < i, numbered (nameStem name) j ∈ taken := fun j => htaken j j.zero_le
  refine ⟨i, hi, ?_, nextFreeName_eq_numbered ?_ hfree htaken, hfree, htaken⟩
  · rw [htried, List.range_eq_range']
  · exact hi.trans taken.toFinset_card_le

theorem nextFreeName_eq (name : String) (taken : List String) :
    ∃ i, nextFreeName name taken = numbered (nameStem name) i ∧
      nextFreeName name taken ∉ taken := by
  obtain ⟨i, -, -, hname, hfree, -⟩ := exists_nextFreeName_least name taken
  exact ⟨i, hname, hname ▸ hfree⟩

theorem nextFreeName_not_mem (name : String) (taken : List String) :
    nextFreeName name taken ∉ taken :=
  (nextFreeName_eq name taken).choose_spec.2

/--
A name is `@` signs, its stem and digits. The stem takes as little as it can: it neither begins with
`@` nor ends in a digit.
-/
theorem exists_toList_eq_nameStem (name : String) :
    ∃ signs digits : List Char, name.toList = signs ++ (nameStem name).toList ++ digits ∧
      (∀ c ∈ signs, c = '@') ∧ (∀ c ∈ digits, c.isDigit) ∧
      (nameStem name).toList.head? ≠ some '@' ∧
      ∀ c ∈ (nameStem name).toList.getLast?, ¬c.isDigit := by
  let digits := ((bareName name).toList.reverse.takeWhile Char.isDigit).reverse
  have hsplit : (bareName name).toList = (nameStem name).toList ++ digits := by
    rw [nameStem, String.toList_ofList, Text.dropLastWhile, ← List.reverse_append,
      List.takeWhile_append_dropWhile, List.reverse_reverse]
  refine ⟨name.toList.takeWhile (· == '@'), digits, ?_, fun c hc => ?_, fun c hc => ?_,
    fun hhead => ?_, fun c hc => ?_⟩
  · rw [List.append_assoc, ← hsplit, bareName, String.toList_ofList,
      List.takeWhile_append_dropWhile]
  · simpa using List.all_eq_true.1 List.all_takeWhile c hc
  · exact List.all_eq_true.1 List.all_takeWhile c (List.mem_reverse.1 hc)
  · obtain ⟨cs, hcs⟩ := List.head?_eq_some_iff.1 hhead
    have hbare := List.head?_dropWhile_not (· == '@') name.toList
    rw [hcs, bareName, String.toList_ofList] at hsplit
    rw [hsplit] at hbare
    cases hbare
  · have hlast := List.head?_dropWhile_not Char.isDigit (bareName name).toList.reverse
    rw [nameStem, String.toList_ofList, Text.dropLastWhile, List.getLast?_reverse,
      Option.mem_def] at hc
    rw [hc] at hlast
    simpa using hlast

open Placeholder in
/-- With a number behind it a stem is a placeholder exactly if it is a word or nothing. -/
theorem placeholder_numbered_iff (stem : String) (i : Nat) :
    (∀ c ∈ stem.toList, Text.isWord c) ↔
      ∃ w, Text.isWordText w ∧ numbered stem i = "@" ++ w ∧
        tokens (numbered stem i).toList = [.placeholder w.toList] := by
  constructor
  · intro h
    have hw : Text.isWordText (stem ++ toString i) := isWordText_append_toString h i
    obtain ⟨hne, hword⟩ := isWordText_iff.1 hw
    have hname : numbered stem i = "@" ++ (stem ++ toString i) := String.append_assoc
    have hstops : Stops Text.isWord [] := by simp [Stops]
    have htokens := tokens_of_before (.placeholder hne hword hstops)
    refine ⟨_, hw, hname, ?_⟩
    rw [List.append_nil, tokens] at htokens
    rwa [hname, String.toList_append]
  · rintro ⟨w, hw, hname, -⟩ c hc
    rw [numbered, String.append_assoc, String.append_right_inj] at hname
    refine (isWordText_iff.1 hw).2 c ?_
    rw [← hname, String.toList_append]
    exact List.mem_append_left _ hc

/--
The search ends after at most one candidate more than there are taken names, and with the first
number whose candidate is free, behind the stem of the name. The result is read as one placeholder
exactly if the stem is a word or nothing.
-/
theorem nextFreeName_least (name : String) (taken : List String) :
    (∃ signs digits : List Char, name.toList = signs ++ (nameStem name).toList ++ digits ∧
      (∀ c ∈ signs, c = '@') ∧ (∀ c ∈ digits, c.isDigit) ∧
      (nameStem name).toList.head? ≠ some '@' ∧
      ∀ c ∈ (nameStem name).toList.getLast?, ¬c.isDigit) ∧
    (tried (nameStem name) taken 0).length ≤ taken.toFinset.card + 1 ∧
    (∃ i, tried (nameStem name) taken 0 = (List.range (i + 1)).map (numbered (nameStem name)) ∧
      nextFreeName name taken = numbered (nameStem name) i ∧
      numbered (nameStem name) i ∉ taken ∧ ∀ j < i, numbered (nameStem name) j ∈ taken) ∧
    ((∀ c ∈ (nameStem name).toList, Text.isWord c) ↔
      ∃ w, Text.isWordText w ∧ nextFreeName name taken = "@" ++ w ∧
        Placeholder.tokens (nextFreeName name taken).toList = [.placeholder w.toList]) := by
  obtain ⟨i, hi, htried, hname, hleast⟩ := exists_nextFreeName_least name taken
  refine ⟨exists_toList_eq_nameStem name, ?_, ⟨i, htried, hname, hleast⟩, ?_⟩
  · rw [htried, List.length_map, List.length_range]
    omega
  · rw [hname]
    exact placeholder_numbered_iff _ i

example : nextFreeName "@p0" ["@p0", "@p1"] = "@p2" := by decide +kernel

end SqlFilter.Select
