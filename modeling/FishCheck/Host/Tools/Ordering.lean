import FishCheck.Host.Tools.Printing

/-!
# Tools that order lines

Lines are sorted, and lines that repeat the one before them are counted or dropped.
-/

namespace FishCheck

namespace Host

namespace Tools

/-- Compares texts character by character, a proper prefix first. -/
def precedes : Text → Text → Bool
  | [], _ => true
  | _ :: _, [] => false
  | a :: as, b :: bs => if a = b then precedes as bs else a < b

/-- The lines of its operands in order. -/
def sort (s : Surroundings) (words : List Text) : Performance :=
  let (options, operands) := optionsOf "kt" words
  let before (a b : Text) : Bool :=
    let le := if has options 'n' then
        let x := (integer? (a.dropWhile isBlank |>.takeWhile fun c => c.isDigit || c == '-')).getD 0
        let y := (integer? (b.dropWhile isBlank |>.takeWhile fun c => c.isDigit || c == '-')).getD 0
        if x = y then precedes a b else x < y
      else precedes a b
    if has options 'r' then a == b || !le else le
  filter "sort" s operands fun t =>
    let ls := ((linesOf t).map content).mergeSort before
    let ls := if has options 'u' then ls.eraseDups else ls
    ls.flatMap (· ++ ['\n'])

/-- Runs of equal neighbours with their lengths. -/
def runs : List Text → List (Nat × Text)
  | [] => []
  | l :: ls =>
    match runs ls with
    | (n, m) :: rest => if l = m then (n + 1, m) :: rest else (1, l) :: (n, m) :: rest
    | [] => [(1, l)]

/-- The lines of its operands without repetitions. -/
def uniq (s : Surroundings) (words : List Text) : Performance :=
  let (options, operands) := optionsOf "" words
  filter "uniq" s operands fun t =>
    (runs ((linesOf t).map content)).flatMap fun (n, l) =>
      if has options 'd' && n == 1 then []
      else if has options 'u' && 1 < n then []
      else if has options 'c' then pad false false 7 (Text.decimal n) ++ ' ' :: l ++ ['\n']
      else l ++ ['\n']

end Tools

end Host

end FishCheck
