import DocHeader.Text.Search

/-!
# Brace groups

A group of alternatives in braces stands for each of them: `src/*.{ts,js}` is short for
two globs. Groups may be nested; the innermost ones are expanded first, from left to
right. A brace without a partner stands for itself.

## Main definitions

* `Glob.firstGroup?` — the first group without a group inside.
* `Glob.expandBraces` — the globs a glob stands for.
-/

namespace DocHeader.Glob

/-- Whether a character is a brace. -/
def isBrace (c : Char) : Bool := c == '\x7b' || c == '\x7d'

/-- The inside of a group and what follows it, for a text that follows an opening brace:
the next brace has to be the closing one. -/
def closeGroup? (cs : List Char) : Option (List Char × List Char) :=
  match cs.dropWhile fun c => !isBrace c with
  | '\x7d' :: after => some (cs.takeWhile fun c => !isBrace c, after)
  | _ => none

/-- What stands before, in and after the first group without a group inside. -/
def firstGroup? : List Char → Option (List Char × List Char × List Char)
  | [] => none
  | c :: cs =>
    match if c == '\x7b' then closeGroup? cs else none with
    | some (inside, after) => some ([], inside, after)
    | none => (firstGroup? cs).map fun (before, rest) => (c :: before, rest)

/-- Expand up to `fuel` groups, one inside the results of the other. -/
def expandWith : Nat → List Char → List (List Char)
  | 0, glob => [glob]
  | fuel + 1, glob =>
    match firstGroup? glob with
    | none => [glob]
    | some (before, inside, after) =>
      (inside.splitOn ',').flatMap fun alternative =>
        expandWith fuel (before ++ alternative ++ after)

/-- The globs a glob stands for. Each expansion uses up one opening brace, so there are
no more of them than opening braces. -/
def expandBraces (glob : String) : List String :=
  (expandWith (glob.toList.count '\x7b') glob.toList).map String.ofList

end DocHeader.Glob
