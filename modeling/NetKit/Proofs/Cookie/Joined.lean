import NetKit.Cookie
import NetKit.Proofs.Answers
import NetKit.Proofs.Text.Lossy

/-!
# Cookies of joined texts

Octets with a line feed between them hold the lines of both and no other, also where a character is
cut off at the line feed. Reading them gives the cookies of both, or none at all if one line of
either is refused.
-/

namespace NetKit.Cookie

open Text

variable {ε : Type} {read : List Char → Except ε SetCookie} {now : Int} {input : Bytes}
  {ls : List (List Char)} {cookies : List Cookie}

/-! ## Lines -/

/-- The lines that are not blank, each decoded and trimmed on its own. -/
def ownLines (input : Bytes) : List (List Char) :=
  ((splitBy (· == 0x0A) input).map fun octets => trim (Utf8.decodeLossy octets).toList).filter
    (!List.isEmpty ·)

theorem lines_eq_ownLines (input : Bytes) : lines input = ownLines input := by
  have hsplit := Utf8.splitBy_decodeLossy (b := 0x0A) (by decide) input
  rw [lines, ownLines, show '\n' = Char.ofNat (0x0A : UInt8).toNat from rfl, hsplit, List.map_map]
  rfl

theorem ownLines_append (a b : Bytes) : ownLines (a ++ 0x0A :: b) = ownLines a ++ ownLines b := by
  rw [ownLines, splitBy_append_self, List.map_append, List.filter_append, ownLines, ownLines]

/-! ## Any reader of one line -/

/-- The cookies of all lines, read with any reader of one line; none when it refuses a line. -/
def parseWith (read : List Char → Except ε SetCookie) (now : Int) (input : Bytes) : List Cookie :=
  match (lines input).mapM fun line => (read line).map (ofSetCookie now) with
  | .ok cookies => cookies
  | .error _ => []

theorem parse_eq_parseWith (now : Int) (input : Bytes) :
    parse now input = parseWith SetCookie.parse now input := by
  rw [parse, parseAll, parseWith]
  cases (lines input).mapM fun line => (SetCookie.parse line).map (ofSetCookie now) <;> rfl

/-- What a line is read as. -/
def ReadsAs (read : List Char → Except ε SetCookie) (now : Int) (line : List Char) (c : Cookie) :
    Prop :=
  ∃ sc, read line = .ok sc ∧ c = ofSetCookie now sc

def Refuses (read : List Char → Except ε SetCookie) (line : List Char) : Prop :=
  ∃ fault, read line = .error fault

theorem not_refuses_of_ok {line : List Char} {sc : SetCookie} (h : read line = .ok sc) :
    ¬ Refuses read line := by
  rintro ⟨fault, hfault⟩
  cases h.symm.trans hfault

theorem readsAs_iff {line : List Char} {c : Cookie} :
    ReadsAs read now line c ↔ (read line).map (ofSetCookie now) = .ok c := by
  rw [Answer.map_eq_ok, ReadsAs]
  exact exists_congr fun sc => and_congr_right fun _ => eq_comm

theorem mapM_eq_ok_iff_readsAs :
    ls.mapM (fun line => (read line).map (ofSetCookie now)) = .ok cookies ↔
      List.Forall₂ (ReadsAs read now) ls cookies := by
  simp only [Answer.mapM_eq_ok_iff, ← List.forall₂_eq_eq_eq, List.forall₂_map_left_iff,
    List.forall₂_map_right_iff, ← readsAs_iff]

theorem exists_readsAs (h : ∀ line ∈ ls, ¬ Refuses read line) :
    ∃ cookies, List.Forall₂ (ReadsAs read now) ls cookies := by
  induction ls with
  | nil => exact ⟨[], .nil⟩
  | cons line ls ih =>
    rw [List.forall_mem_cons] at h
    obtain ⟨cookies, hcookies⟩ := ih h.2
    cases hline : read line with
    | error fault => exact absurd ⟨fault, hline⟩ h.1
    | ok sc => exact ⟨_, .cons ⟨sc, hline, rfl⟩ hcookies⟩

theorem not_refuses_of_readsAs (h : List.Forall₂ (ReadsAs read now) ls cookies) :
    ∀ line ∈ ls, ¬ Refuses read line := by
  induction h with
  | nil => rintro line ⟨⟩
  | cons hline _ ih =>
    obtain ⟨sc, hsc, -⟩ := hline
    exact List.forall_mem_cons.mpr ⟨not_refuses_of_ok hsc, ih⟩

theorem parseWith_of_readsAs (h : List.Forall₂ (ReadsAs read now) (ownLines input) cookies) :
    parseWith read now input = cookies := by
  rw [parseWith, lines_eq_ownLines, mapM_eq_ok_iff_readsAs.mpr h]

theorem parseWith_of_refuses (h : ∃ line ∈ ownLines input, Refuses read line) :
    parseWith read now input = [] := by
  rw [parseWith, lines_eq_ownLines]
  split
  · rename_i cookies hcookies
    obtain ⟨line, hline, hrefuses⟩ := h
    exact absurd hrefuses (not_refuses_of_readsAs (mapM_eq_ok_iff_readsAs.mp hcookies) line hline)
  · rfl

/-- With the clock and the reader of one line fixed, texts that are joined are read line by line,
each line as it is on its own. -/
theorem joined_texts_all_or_nothing (read : List Char → Except ε SetCookie) (now : Int) :
    (∀ input, parse now input = parseWith SetCookie.parse now input) ∧
    (∀ input, (∀ line ∈ ownLines input, ¬ Refuses read line) →
      List.Forall₂ (ReadsAs read now) (ownLines input) (parseWith read now input)) ∧
    ∀ a b, ((∀ line ∈ ownLines a ++ ownLines b, ¬ Refuses read line) →
        parseWith read now (a ++ 0x0A :: b) = parseWith read now a ++ parseWith read now b) ∧
      ((∃ line ∈ ownLines a ++ ownLines b, Refuses read line) →
        parseWith read now (a ++ 0x0A :: b) = []) := by
  have hread (input : Bytes) (h : ∀ line ∈ ownLines input, ¬ Refuses read line) :
      List.Forall₂ (ReadsAs read now) (ownLines input) (parseWith read now input) := by
    obtain ⟨cookies, hcookies⟩ := exists_readsAs h
    rwa [parseWith_of_readsAs hcookies]
  refine ⟨parse_eq_parseWith now, hread, fun a b => ⟨fun h => ?_, fun h => ?_⟩⟩
  · rw [List.forall_mem_append] at h
    apply parseWith_of_readsAs
    rw [ownLines_append]
    exact List.rel_append (hread a h.1) (hread b h.2)
  · apply parseWith_of_refuses
    rwa [ownLines_append]

/-- A character cut in two by the line feed is unreadable on both sides, and nothing else is. -/
theorem joined_texts_in_a_character :
    let a : Bytes := [0x61, 0x3D, 0xE2]
    let b : Bytes := [0x82, 0xAC, 0x3D]
    ownLines a ++ ownLines b = ["a=\uFFFD".toList, "\uFFFD\uFFFD=".toList] ∧
      parse 0 (a ++ 0x0A :: b) = parse 0 a ++ parse 0 b ∧ (parse 0 (a ++ 0x0A :: b)).length = 2 ∧
      parse 0 (a ++ 0x0A :: [0x3D]) = [] := by
  intro a b
  obtain ⟨hparse, hlines, hjoin⟩ := joined_texts_all_or_nothing SetCookie.parse 0
  have howna : ownLines a = ["a=\uFFFD".toList] := by decide +kernel
  have hownb : ownLines b = ["\uFFFD\uFFFD=".toList] := by decide +kernel
  have hrejected : ownLines [0x3D] = ["=".toList] := by decide +kernel
  have hown : ownLines a ++ ownLines b = ["a=\uFFFD".toList, "\uFFFD\uFFFD=".toList] := by
    rw [howna, hownb]
    rfl
  have haccepted : ∀ line ∈ ownLines a ++ ownLines b, ¬ Refuses SetCookie.parse line := by
    rw [hown, List.forall_mem_cons, List.forall_mem_singleton]
    have hfront : SetCookie.parse "a=\uFFFD".toList =
        .ok { name := ['a'], value := ['\uFFFD'] } := by decide
    have hback : SetCookie.parse "\uFFFD\uFFFD=".toList =
        .ok { name := ['\uFFFD', '\uFFFD'], value := [] } := by decide
    exact ⟨not_refuses_of_ok hfront, not_refuses_of_ok hback⟩
  have hlength := (hlines (a ++ 0x0A :: b) (by rwa [ownLines_append])).length_eq
  rw [ownLines_append, hown] at hlength
  simp only [hparse]
  refine ⟨hown, (hjoin a b).1 haccepted, hlength.symm, (hjoin a [0x3D]).2 ⟨"=".toList, ?_, ?_⟩⟩
  · rw [hrejected]
    exact List.mem_append_right _ (List.mem_singleton_self _)
  · exact ⟨.emptyName, by decide⟩

end NetKit.Cookie
