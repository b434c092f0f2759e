import Memoize.Proofs.Names.Fresh
import Memoize.Proofs.Text.Uppercase

/-!
# Spelling of holder names

A name is allocated for a function exactly if the function's name in upper case and the owner
consist of characters of names (`allocate_eq_none_iff`), whatever the number. For a function and an
owner that have names this holds (`nameable_of_parts`).
-/

namespace Memoize

namespace Names

/-- The digits of a number may stand in a name. -/
theorem digits_all_isNamePart (n : Nat) : (Nat.toDigits 10 n).all Text.isNamePart = true := by
  rw [List.all_eq_true]
  intro c hc
  have hdigit := Nat.isDigit_of_mem_toDigits (by decide) (by decide) hc
  simp [Text.isNamePart, Char.isAlphanum, hdigit]

/-- The number of a name does not decide whether the name is spelled like one. -/
theorem isSpelledName_numbered (base : String) (m n : Nat) :
    isSpelledName (numbered base m) = isSpelledName (numbered base n) := by
  have hchars (n : Nat) : (numbered base n).toList = base.toList ++ '_' :: Nat.toDigits 10 n := by
    simp [numbered]
  unfold isSpelledName
  rw [hchars, hchars]
  cases base.toList with
  | nil => simp only [List.nil_append, digits_all_isNamePart]
  | cons c rest =>
      simp only [List.cons_append, List.all_append, List.all_cons, digits_all_isNamePart]

/-- Whether holders of a function can be named: its name in upper case and the owner that qualifies
it consist of characters of names. -/
def Nameable (owner? : Option String) (function : String) : Prop :=
  (∀ owner ∈ owner?, owner.toList.all Text.isNamePart) ∧
    (Text.upper (unraw function)).toList.all Text.isNamePart

/-- After two underscores any characters of names make a name. -/
theorem isSpelledName_underscores (s : String) :
    isSpelledName ("__" ++ s) = s.toList.all Text.isNamePart := by
  have hstart : Text.isNameStart '_' = true := by decide
  have hpart : Text.isNamePart '_' = true := by decide
  simp [isSpelledName, hstart, hpart]

/-- A numbered name of a function is spelled like a name exactly if its holders can be named. -/
theorem isSpelledName_iff_nameable (names : Names) (f : String) (n : Nat) :
    isSpelledName (numbered (names.base f) n) = true ↔ Nameable names.owner f := by
  have happend (s t : String) : (s ++ t).toList.all Text.isNamePart =
      (s.toList.all Text.isNamePart && t.toList.all Text.isNamePart) := by
    rw [String.toList_append, List.all_append]
  have hjoin : "_".toList.all Text.isNamePart = true := by decide
  have hcache : "_CACHE_".toList.all Text.isNamePart = true := by decide
  have hnumber : (toString n).toList.all Text.isNamePart = true := by
    simpa using digits_all_isNamePart n
  unfold numbered base Nameable
  cases names.owner with
  | none =>
    have hname : "__" ++ Text.upper (unraw f) ++ "_CACHE" ++ "_" ++ toString n =
        "__" ++ (Text.upper (unraw f) ++ ("_CACHE_" ++ toString n)) := by
      simp [String.append_assoc]
    dsimp only
    rw [hname, isSpelledName_underscores, happend, happend, hcache, hnumber]
    simp
  | some owner =>
    have hname : "__" ++ owner ++ "_" ++ Text.upper (unraw f) ++ "_CACHE" ++ "_" ++ toString n =
        "__" ++ (owner ++ ("_" ++ (Text.upper (unraw f) ++ ("_CACHE_" ++ toString n)))) := by
      simp [String.append_assoc]
    dsimp only
    rw [hname, isSpelledName_underscores, happend, happend, happend, happend, hjoin, hcache,
      hnumber]
    simp

/-- Holders can be named for a function and an owner whose names consist of characters of names. -/
theorem nameable_of_parts {owner? : Option String} {f : String}
    (h : ∀ s ∈ unraw f :: owner?.toList, ∀ c ∈ s.toList, Text.isNamePart c) :
    Nameable (owner?.map Text.upper) f := by
  refine ⟨fun owner howner => ?_, Text.all_isNamePart_upper (h _ List.mem_cons_self)⟩
  obtain ⟨written, hwritten, rfl⟩ := Option.map_eq_some_iff.mp howner
  exact Text.all_isNamePart_upper (h _ (List.mem_cons_of_mem _ (Option.mem_toList.mpr hwritten)))

/-- Holders can be named for a function and an owner with ASCII names. -/
theorem nameable_of_ascii {owner? : Option String} {f : String}
    (h : ∀ s ∈ unraw f :: owner?.toList, ∀ c ∈ s.toList, c.toNat < 128 ∧ Text.isNamePart c) :
    Nameable (owner?.map Text.upper) f :=
  nameable_of_parts fun s hs c hc => (h s hs c hc).2

/-- Holders can be named for a function whose name is one, if the owner consists of characters of
names. -/
theorem nameable_of_isSpelledName {owner? : Option String} {f : String}
    (howner : ∀ owner ∈ owner?, owner.toList.all Text.isNamePart)
    (hf : isSpelledName (unraw f) = true) : Nameable owner? f := by
  refine ⟨howner, Text.all_isNamePart_upper ?_⟩
  intro c hc
  unfold isSpelledName at hf
  cases hchars : (unraw f).toList with
  | nil => simp [hchars] at hc
  | cons d rest =>
      simp only [hchars, Bool.and_eq_true, List.all_eq_true] at hf
      rw [hchars] at hc
      rcases List.mem_cons.mp hc with rfl | hc
      · exact Text.isNamePart_of_isNameStart c hf.1
      · exact hf.2 c hc

/-- No name is allocated for a function exactly if its holders cannot be named. -/
theorem allocate_eq_none_iff {names : Names} {f : String} :
    names.allocate f = none ↔ ¬ Nameable names.owner f := by
  rw [← isSpelledName_iff_nameable names f (names.freshNumber (names.base f))]
  unfold allocate fresh
  dsimp only
  split
  · rename_i hspelled
    simp [hspelled]
  · rename_i hspelled
    simp [hspelled]

end Names

end Memoize
