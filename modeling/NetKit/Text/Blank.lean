/-!
White space of Unicode, of ASCII, and trimming by either.
-/
namespace NetKit.Text

/-- The property White_Space. -/
def isBlank (c : Char) : Bool :=
  let n := c.toNat
  (0x9 ≤ n && n ≤ 0xD) || n == 0x20 || n == 0x85 || n == 0xA0 || n == 0x1680 ||
    (0x2000 ≤ n && n ≤ 0x200A) || n == 0x2028 || n == 0x2029 || n == 0x202F || n == 0x205F ||
    n == 0x3000

def dropWhileEnd {α : Type} (p : α → Bool) (l : List α) : List α :=
  (l.reverse.dropWhile p).reverse

def trimBy {α : Type} (p : α → Bool) (l : List α) : List α :=
  dropWhileEnd p (l.dropWhile p)

/-- Without the blanks at both ends. -/
def trim (l : List Char) : List Char := trimBy isBlank l

/-- The parts before and after the first element that satisfies `p`. -/
def splitOnce {α : Type} (p : α → Bool) (l : List α) : Option (List α × List α) :=
  match l.dropWhile (fun a => !p a) with
  | [] => none
  | _ :: after => some (l.takeWhile (fun a => !p a), after)

/-- The pieces between the elements that satisfy `p`; there is one more piece than such elements. -/
def splitBy {α : Type} (p : α → Bool) : List α → List (List α)
  | [] => [[]]
  | a :: l =>
    if p a then [] :: splitBy p l
    else match splitBy p l with
      | [] => [[a]]
      | piece :: pieces => (a :: piece) :: pieces

end NetKit.Text
