import DocIndex.Proofs.Text.Case
import DocIndex.Settings.Path

/-!
# Letters in paths of settings

The case of letters in a path does not matter: a text in small letters spells the path of the text, with its
names in small letters (`ofText_lowercase`). Every path starts with a name (`exists_ofText_eq`), so that a
name that one source has put into a tree is read as itself when the tree is laid over another.
-/

namespace DocIndex

namespace SettingStep

/-- A step with its name in small letters. -/
def lowercase : SettingStep → SettingStep
  | member name => member (Text.lowercase name)
  | element index => element index

end SettingStep

namespace SettingPath

open Text (lower map_lower lower_eq_iff)

theorem isNameChar_lower (c : Char) : isNameChar (lower c) = isNameChar c := map_lower (by decide) c

theorem isGap_lower (c : Char) : isGap (lower c) = isGap c := map_lower (by decide) c

theorem isDigit_lower (c : Char) : Text.isDigit (lower c) = Text.isDigit c := map_lower (by decide) c

theorem lower_of_isDigit {c : Char} (h : Text.isDigit c = true) : lower c = c := by
  unfold lower
  split
  · rename_i hcapital
    simp only [Text.isDigit, Text.digit?, Bool.and_eq_true, Nat.ble_eq] at h hcapital
    rw [if_neg (by omega)] at h
    cases h
  · rfl

theorem takeWhile_lower {p : Char → Bool} (hp : ∀ c, p (lower c) = p c) (text : List Char) :
    (text.map lower).takeWhile p = (text.takeWhile p).map lower := by
  rw [List.takeWhile_map, show p ∘ lower = p from funext hp]

theorem dropWhile_lower {p : Char → Bool} (hp : ∀ c, p (lower c) = p c) (text : List Char) :
    (text.map lower).dropWhile p = (text.dropWhile p).map lower := by
  rw [List.dropWhile_map, show p ∘ lower = p from funext hp]

/-- What is read, in small letters. -/
def lowerRead (read : SettingStep × List Char) : SettingStep × List Char :=
  (read.1.lowercase, read.2.map lower)

theorem readName_lower (text : List Char) :
    readName (text.map lower) = (readName text).map lowerRead := by
  rw [readName, readName, takeWhile_lower isNameChar_lower, dropWhile_lower isNameChar_lower]
  cases text.takeWhile isNameChar with
  | nil => rfl
  | cons c name => simp [lowerRead, SettingStep.lowercase, Text.lowercase]

/-- A position behind its sign, and what follows the closing bracket. -/
def readDigits (negative : Bool) (text : List Char) : Option (SettingStep × List Char) := do
  let index ← SettingValue.signed? negative (text.takeWhile Text.isDigit)
  match (text.dropWhile Text.isDigit).dropWhile isGap with
  | ']' :: rest => return (.element index, rest)
  | _ => none

theorem readIndex_eq (text : List Char) :
    readIndex text =
      if (text.dropWhile isGap).head? = some '-' then readDigits true (text.dropWhile isGap).tail
      else readDigits false (text.dropWhile isGap) := by
  unfold readIndex
  dsimp only
  split
  · rename_i hminus
    rw [hminus]
    exact (if_pos rfl).symm
  · rename_i hother
    rw [if_neg fun hminus => hother _ (List.head?_eq_some_iff.mp hminus).choose_spec]
    rfl

theorem readDigits_lower (negative : Bool) (text : List Char) :
    readDigits negative (text.map lower) = (readDigits negative text).map lowerRead := by
  have hdigits : (text.takeWhile Text.isDigit).map lower = text.takeWhile Text.isDigit :=
    (List.map_congr_left fun c hc =>
      lower_of_isDigit (List.all_eq_true.mp List.all_takeWhile c hc)).trans (List.map_id _)
  rw [readDigits, readDigits, takeWhile_lower isDigit_lower, hdigits, dropWhile_lower isDigit_lower,
    dropWhile_lower isGap_lower]
  cases SettingValue.signed? negative (text.takeWhile Text.isDigit) with
  | none => rfl
  | some index =>
    cases (text.dropWhile Text.isDigit).dropWhile isGap with
    | nil => rfl
    | cons c rest =>
      simp only [Option.bind_eq_bind, Option.bind_some, List.map_cons]
      by_cases hc : c = ']'
      · subst hc
        rfl
      · have hlower : lower c ≠ ']' := mt (lower_eq_iff (by decide)).mp hc
        split
        · rename_i heq
          exact absurd (List.cons.inj heq).1 hlower
        · split
          · rename_i heq
            exact absurd (List.cons.inj heq).1 hc
          · rfl

theorem readIndex_lower (text : List Char) :
    readIndex (text.map lower) = (readIndex text).map lowerRead := by
  have hminus : ((text.dropWhile isGap).map lower).head? = some '-' ↔ (text.dropWhile isGap).head? = some '-' := by
    cases text.dropWhile isGap with
    | nil => rfl
    | cons c rest => simp [@lower_eq_iff c '-' (by decide)]
  rw [readIndex_eq, readIndex_eq, dropWhile_lower isGap_lower]
  split
  · rename_i h
    rw [if_pos (hminus.mp h), ← List.map_tail, readDigits_lower]
  · rename_i h
    rw [if_neg (mt hminus.mpr h), readDigits_lower]

/-- Steps other than names and positions cannot be read. -/
theorem readSteps_eq_none {c : Char} (hpoint : c ≠ '.') (hbracket : c ≠ '[') (fuel : Nat) (text : List Char) :
    readSteps fuel (c :: text) = none := by
  cases fuel with
  | zero => rfl
  | succ fuel => simp [readSteps, hpoint, hbracket]

theorem readSteps_lower (fuel : Nat) (text : List Char) :
    readSteps fuel (text.map lower) = (readSteps fuel text).map (List.map SettingStep.lowercase) := by
  induction fuel generalizing text with
  | zero => cases text <;> rfl
  | succ fuel ih =>
    cases text with
    | nil => rfl
    | cons c rest =>
      rw [List.map_cons]
      by_cases hpoint : c = '.'
      · subst hpoint
        rw [show lower '.' = '.' from rfl, readSteps, readSteps, readName_lower]
        cases readName rest with
        | none => rfl
        | some read => simp [lowerRead, ih, Function.comp_def]
      · by_cases hbracket : c = '['
        · subst hbracket
          rw [show lower '[' = '[' from rfl, readSteps, readSteps, readIndex_lower]
          cases readIndex rest with
          | none => rfl
          | some read => simp [lowerRead, ih, Function.comp_def]
        · rw [readSteps_eq_none hpoint hbracket,
            readSteps_eq_none (mt (lower_eq_iff (by decide)).mp hpoint)
              (mt (lower_eq_iff (by decide)).mp hbracket)]
          rfl

theorem parse?_lowercase (text : String) :
    parse? (Text.lowercase text) = (parse? text).map (List.map SettingStep.lowercase) := by
  rw [parse?, parse?, Text.lowercase, String.toList_ofList, readName_lower]
  cases readName text.toList with
  | none => rfl
  | some read =>
    obtain ⟨step, rest⟩ := read
    simp only [Option.map_some, lowerRead, Option.bind_eq_bind, Option.bind_some, List.length_map,
      readSteps_lower]
    cases readSteps rest.length rest <;> rfl

/-- **The case of letters does not matter.** The path of a text in small letters is the path of the text,
with its names in small letters. -/
theorem ofText_lowercase (text : String) :
    ofText (Text.lowercase text) = (ofText text).map SettingStep.lowercase := by
  rw [ofText, ofText, parse?_lowercase]
  cases parse? text <;> rfl

theorem exists_name_of_readName {text rest : List Char} {step : SettingStep}
    (h : readName text = some (step, rest)) :
    ∃ name, name ≠ [] ∧ (∀ c ∈ name, isNameChar c = true) ∧ step = .member (String.ofList name) := by
  unfold readName at h
  split at h
  · cases h
  · rename_i hne
    obtain ⟨rfl, -⟩ := Prod.mk.inj (Option.some.inj h)
    exact ⟨_, hne, List.all_eq_true.mp List.all_takeWhile, rfl⟩

/-- A text of characters of names is the path to the member with that name. -/
theorem ofText_of_isNameChar {name : List Char} (hne : name ≠ []) (hall : ∀ c ∈ name, isNameChar c = true) :
    ofText (String.ofList name) = [.member (String.ofList name)] := by
  have htake : (name ++ []).takeWhile isNameChar = name ++ [] := List.takeWhile_append_of_pos hall
  have hdrop : (name ++ []).dropWhile isNameChar = [] := List.dropWhile_append_of_pos hall
  rw [List.append_nil] at htake hdrop
  have hread : readName name = some (.member (String.ofList name), []) := by
    unfold readName
    rw [htake, hdrop]
    cases name with
    | nil => exact absurd rfl hne
    | cons c name => rfl
  rw [ofText, parse?, String.toList_ofList, hread]
  rfl

/-- A path starts with a name, which alone is the path of itself. -/
theorem exists_ofText_eq (text : String) :
    ∃ name rest, ofText text = .member name :: rest ∧ ofText name = [.member name] := by
  cases hparse : parse? text with
  | none =>
    have htext : ofText text = [.member text] := by rw [ofText, hparse]; rfl
    exact ⟨text, [], htext, htext⟩
  | some path =>
    obtain ⟨⟨step, rest⟩, hname, hrest⟩ := Option.bind_eq_some_iff.mp hparse
    obtain ⟨steps, -, hpath⟩ := Option.bind_eq_some_iff.mp hrest
    obtain ⟨name, hne, hall, rfl⟩ := exists_name_of_readName hname
    exact ⟨String.ofList name, steps, by rw [ofText, hparse, ← Option.some.inj hpath]; rfl,
      ofText_of_isNameChar hne hall⟩

end SettingPath

end DocIndex
