import StageTree.Ignore.Expression
import StageTree.Text.Blank
import StageTree.Text.Quoted
import StageTree.Text.Shape

/-!
# Ignore patterns

An ignore pattern is one line of an ignore file. The line is trimmed of blanks (only at its
start when it ends in an escaped space). A blank line, a line starting with `#`, and the line
`/` are no rule. A leading `!` makes a rule that keeps what it matches instead of ignoring it.

The rest is split at `/` into segments; runs of `**` segments count as one. A pattern of one
segment, or of one segment and a trailing slash, matches at any depth; a leading slash anchors
it at the top; a trailing slash makes it match everything below a directory. The segments
become one pattern over the whole relative path: `**` stands for any leading, inner or trailing
directories, `*` for one segment, and a segment's own wildcards (`*`, `?`, bracket classes,
`\` escapes) never cross a slash. A class opened with `!` or `^` is negated. A pattern that does
not end in `**` also matches everything below what it matches. The pattern is compiled by way of
its expression text, where a class holding a range whose end comes before its start fails to
compile. A `.`-like wildcard (any character in a group of directories) never matches a line
feed, and the end of a path may be followed by one line feed.

The rules of a file are taken in order; the last rule that matches a path decides whether it is
ignored.
-/

namespace StageTree.Ignore

open Text

/-- A class of characters: the listed characters and ranges, or all others when negated. -/
def inClass (negated : Bool) (members : List (Char × Char)) (c : Char) : Bool :=
  members.any (fun (lo, hi) => lo ≤ c && c ≤ hi) != negated

/-- Any character but a slash. -/
def notSlash (c : Char) : Bool := c != '/'

/-- Any character but a line feed. -/
def notBreak (c : Char) : Bool := c != '\n'

/-- The members of a bracket class's text: characters, and ranges `a-z`; a `-` first or last
stands for itself. -/
def classMembers : List Char → List (Char × Char)
  | [] => []
  | a :: '-' :: b :: rest => (a, b) :: classMembers rest
  | a :: rest => (a, a) :: classMembers rest

/-- The end of a bracket class: the characters before its closing bracket (a bracket right
after the opening one, or after its negation, is a member), and the characters after it. -/
def classBody (cs : List Char) : Option (List Char × List Char) :=
  let (lead, rest) := match cs with
    | ']' :: more => ([']'], more)
    | _ => ([], cs)
  match rest.span (· != ']') with
  | (inner, ']' :: after) => some (lead ++ inner, after)
  | _ => none

/-- A piece of a segment's translation into expression text. -/
inductive Token where
  /-- A character that stands for itself. -/
  | char (c : Char)
  /-- `*`: any run of characters but a slash. -/
  | anyRun
  /-- `?`: any one character but a slash. -/
  | anyOne
  /-- A bracket class: whether `!` or `^` negates it, and the characters before its closing
  bracket. -/
  | bracket (negated : Bool) (inner : List Char)

/-- The items a bracket class is compiled from. -/
def bracketItems (inner : List Char) : List ClassItem := inner.map ClassItem.ofChar

/-- The expression text of a token. -/
def Token.spelling : Token → String
  | .char c => escapeChar c
  | .anyRun => "[^/]*"
  | .anyOne => "[^/]"
  | .bracket negated inner =>
    "[" ++ (if negated then "^" else "") ++ spellItems (bracketItems inner) ++ "]"

/-- The parts of a token whose text starts at `offset` of the expression, or the range its class
refuses. After a class closed early, what was left of it is taken character by character. -/
def Token.parts (offset : Nat) : Token → Except (String × Nat) (List Part)
  | .char c => .ok [.piece (.one (· == c))]
  | .anyRun => .ok [.piece (.run 0 notSlash)]
  | .anyOne => .ok [.piece (.one notSlash)]
  | .bracket negated inner =>
    let start := offset + 1 + (if negated then 1 else 0)
    match readClass false start (bracketItems inner) with
    | .error e => .error e
    | .ok (members, after) =>
      let left := match after with
        | some items => (items.map (·.char) ++ [']']).map fun c => Part.piece (.one (· == c))
        | none => []
      .ok (.piece (.one (inClass negated members)) :: left)

/-- The tokens of a segment's wildcards, with `fuel` steps (one per character is enough); none
when a `\` ends the segment. -/
def segmentTokensIn : Nat → List Char → Option (List Token)
  | _, [] => some []
  | 0, _ :: _ => none
  | _ + 1, ['\\'] => none
  | fuel + 1, '\\' :: c :: rest => (segmentTokensIn fuel rest).map (.char c :: ·)
  | fuel + 1, '*' :: rest => (segmentTokensIn fuel rest).map (.anyRun :: ·)
  | fuel + 1, '?' :: rest => (segmentTokensIn fuel rest).map (.anyOne :: ·)
  | fuel + 1, '[' :: rest =>
    let (negated, body) := match rest with
      | '!' :: more => (true, more)
      | '^' :: more => (true, more)
      | _ => (false, rest)
    match classBody body with
    | some (inner, after) =>
      (segmentTokensIn fuel after).map (.bracket negated inner :: ·)
    | none => (segmentTokensIn fuel rest).map (.char '[' :: ·)
  | fuel + 1, c :: rest => (segmentTokensIn fuel rest).map (.char c :: ·)

/-- The tokens of a segment's wildcards; none when a `\` ends the segment. -/
def segmentTokens (cs : List Char) : Option (List Token) := segmentTokensIn (cs.length + 1) cs

/-- A stretch of a rule's expression: fixed text with the parts it matches, or a token of a
segment, whose parts depend on how its class compiles. -/
inductive Element where
  | fixed (spelling : String) (parts : List Part)
  | token (t : Token)

/-- The expression text of an element. -/
def Element.spelling : Element → String
  | .fixed s _ => s
  | .token t => t.spelling

/-- The parts of elements whose text starts at `offset` of the expression, or the first range a
class among them refuses. -/
def compileElements (offset : Nat) : List Element → Except (String × Nat) (List Part)
  | [] => .ok []
  | .fixed s ps :: rest => (compileElements (offset + s.length) rest).map (ps ++ ·)
  | .token t :: rest => do
    let here ← t.parts offset
    let more ← compileElements (offset + t.spelling.length) rest
    return here ++ more

/-- A rule of an ignore file: whether it ignores (rather than keeps) what it matches, and the
pattern over a whole relative path. -/
structure Rule where
  ignores : Bool
  pattern : List Part

/-- Any trailing directories: a slash and then anything. -/
def belowAnything : List Piece := [.one (· == '/'), .run 0 notBreak]

/-- Segments with each run of `**` segments made one. -/
def collapseStars : List String → List String
  | a :: b :: rest =>
    if a == "**" && b == "**" then collapseStars (a :: rest) else a :: collapseStars (b :: rest)
  | segs => segs
termination_by segs => segs.length

/-- The segments of a pattern anchored at the top: a leading slash dropped, a lone segment (or a
lone segment and a trailing slash) put under `**`, and a trailing slash made `**`. -/
def anchor (segs : List String) : List String :=
  let segs := match segs with
    | "" :: rest => rest
    | [a] => if a == "**" then [a] else ["**", a]
    | [a, ""] => if a == "**" then [a, ""] else ["**", a, ""]
    | _ => segs
  if segs.length > 1 && segs.getLastD "x" == "" then segs.dropLast ++ ["**"] else segs

/-- The elements of anchored segments, the `i`-th onward of `count`; `slash` tells whether a
slash must come before the next segment. None when a segment ends in a lone `\`. -/
def segmentElements (count : Nat) (dirPattern : Bool) :
    Nat → Bool → List String → Option (List Element)
  | _, _, [] => some []
  | i, slash, seg :: rest =>
    let last := i + 1 == count
    let lead : List Element := if slash then [.fixed "/" [.piece (.one (· == '/'))]] else []
    let tail : List Element :=
      if last then [.fixed "(?:(?P<ps_d>/).*)?" [.optional belowAnything]] else []
    if seg == "**" then
      if i == 0 && last then
        some [.fixed "[^/]+(?:/.*)?" [.piece (.run 1 notSlash), .optional belowAnything]]
      else if i == 0 then
        (segmentElements count dirPattern (i + 1) false rest).map
          (.fixed "(?:.+/)?" [.optional [.run 1 notBreak, .one (· == '/')]] :: ·)
      else if last then
        some [.fixed (if dirPattern then "(?P<ps_d>/).*" else "/.*") (belowAnything.map .piece)]
      else
        (segmentElements count dirPattern (i + 1) true rest).map
          (.fixed "(?:/.+)?" [.optional [.one (· == '/'), .run 1 notBreak]] :: ·)
    else if seg == "*" then
      (segmentElements count dirPattern (i + 1) true rest).map fun es =>
        lead ++ [.fixed "[^/]+" [.piece (.run 1 notSlash)]] ++ tail ++ es
    else
      match segmentTokens seg.toList with
      | some tokens =>
        (segmentElements count dirPattern (i + 1) true rest).map fun es =>
          lead ++ tokens.map .token ++ tail ++ es
      | none => none

/-- Why a line is no valid pattern: the message naming it. -/
def invalidMessage (line : String) : String := "Invalid git pattern: " ++ Text.quote line

/-- Why a line gives no rule. -/
inductive LineError where
  /-- The line is no valid pattern; the message names it. -/
  | invalid (message : String)
  /-- The expression the line becomes does not compile; the message says where. -/
  | uncompilable (message : String)

/-- The rule of a line of an ignore file: none for a blank line, a comment or a lone slash. -/
def Rule.ofLine (line : String) : Except LineError (Option Rule) :=
  let text := if line.endsWith "\\ " then Text.trimLeadingBlanks line else Text.trimBlanks line
  if text.startsWith "#" || text == "/" || text.isEmpty then .ok none
  else
    let ignores := !text.startsWith "!"
    let body := if ignores then text else String.ofList (text.toList.drop 1)
    let split := body.splitOn "/"
    let dirPattern := split.getLastD "x" == ""
    let segs := collapseStars split
    let everythingBelow := segs == ["**", ""]
    let segs := anchor segs
    if segs.isEmpty then .error (.invalid (invalidMessage line))
    else if everythingBelow then
      .ok (some ⟨ignores, [.piece (.run 1 notBreak), .piece (.one (· == '/')),
        .piece (.run 0 notBreak)]⟩)
    else match segmentElements segs.length dirPattern 0 false segs with
      | none => .error (.invalid (invalidMessage line))
      | some elements =>
        match compileElements 1 elements with
        | .ok parts => .ok (some ⟨ignores, parts⟩)
        | .error (range, position) =>
          let expression := "^" ++ String.join (elements.map Element.spelling) ++ "$"
          .error (.uncompilable (badRangeMessage expression range position))

/-- Whether a rule's pattern matches a whole relative path, or the path and one line feed. -/
def Rule.matches (r : Rule) (path : String) : Bool :=
  partsThen r.pattern path.toList fun rest => rest.isEmpty || rest == ['\n']

/-- The rules of an ignore file, in order. -/
structure Spec where
  rules : List Rule

/-- The rules of lines, skipping empty ones; why the first line that gives no rule fails. -/
def Spec.ofLines (lines : List String) : Except LineError Spec := do
  let rules ← (lines.filter (!·.isEmpty)).mapM Rule.ofLine
  return ⟨rules.filterMap id⟩

/-- A path relative to the top: without a leading slash or `./`. -/
def relative (path : String) : String :=
  if path.startsWith "/" then String.ofList (path.toList.drop 1)
  else if path.startsWith "./" then String.ofList (path.toList.drop 2)
  else path

/-- Whether a path is ignored: the last rule matching it ignores. -/
def Spec.ignores (s : Spec) (path : String) : Bool :=
  let p := relative path
  s.rules.foldl (fun acc r => if r.matches p then r.ignores else acc) false

end StageTree.Ignore
