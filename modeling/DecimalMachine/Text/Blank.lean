/-!
White space, and the two ways a text is cut at it: into tokens, and trimmed at both ends.

The characters are those with the Unicode property `White_Space`, not only the ASCII ones.

`tokenChars_append_blank` says that cutting may begin anew behind any blank, `tokenChars_of_token`
that a text without a blank is one token; the tokens of every text follow from the two.
-/

namespace DecimalMachine.Text

def isBlank (c : Char) : Bool :=
  let n := c.toNat
  (0x09 ≤ n && n ≤ 0x0D) || n == 0x20 || n == 0x85 || n == 0xA0 || n == 0x1680 ||
    (0x2000 ≤ n && n ≤ 0x200A) || n == 0x2028 || n == 0x2029 || n == 0x202F || n == 0x205F ||
    n == 0x3000

def pushToken (token : List Char) (tokens : List (List Char)) : List (List Char) :=
  if token.isEmpty then tokens else token :: tokens

/-- One character in front of a text that is already cut: the token it may continue, and the tokens
after that one. -/
def cutBefore (c : Char) (cut : List Char × List (List Char)) : List Char × List (List Char) :=
  if isBlank c then ([], pushToken cut.1 cut.2) else (c :: cut.1, cut.2)

def cut (cs : List Char) : List Char × List (List Char) := cs.foldr cutBefore ([], [])

/-- The maximal runs of characters that are not blank. -/
def tokenChars (cs : List Char) : List (List Char) := pushToken (cut cs).1 (cut cs).2

def tokens (text : String) : List String := (tokenChars text.toList).map String.ofList

theorem pushToken_append (token : List Char) (ts us : List (List Char)) :
    pushToken token (ts ++ us) = pushToken token ts ++ us := by
  by_cases h : token.isEmpty <;> simp [pushToken, h]

theorem foldr_cutBefore (cs : List Char) (ts : List (List Char)) :
    cs.foldr cutBefore ([], ts) = ((cut cs).1, (cut cs).2 ++ ts) := by
  induction cs with
  | nil => rfl
  | cons c cs ih =>
    have own : cut (c :: cs) = cutBefore c (cut cs) := rfl
    rw [List.foldr_cons, ih, own]
    by_cases h : isBlank c <;> simp [cutBefore, h, pushToken_append]

theorem tokenChars_append_blank (cs : List Char) {c : Char} (h : isBlank c) (ds : List Char) :
    tokenChars (cs ++ c :: ds) = tokenChars cs ++ tokenChars ds := by
  have behind : cut (c :: ds) = ([], tokenChars ds) := by
    simp [cut, cutBefore, h, tokenChars]
  have whole : cut (cs ++ c :: ds) = ((cut cs).1, (cut cs).2 ++ tokenChars ds) := by
    rw [← foldr_cutBefore, ← behind, cut, List.foldr_append]
    rfl
  rw [tokenChars, whole, pushToken_append]
  rfl

theorem cut_of_token {cs : List Char} (h : ∀ c ∈ cs, isBlank c = false) : cut cs = (cs, []) := by
  induction cs with
  | nil => rfl
  | cons c cs ih =>
    have own : cut (c :: cs) = cutBefore c (cut cs) := rfl
    rw [own, ih fun d mem => h d (List.mem_cons_of_mem c mem)]
    simp [cutBefore, h c List.mem_cons_self]

theorem tokenChars_of_token {cs : List Char} (nonempty : cs ≠ [])
    (h : ∀ c ∈ cs, isBlank c = false) : tokenChars cs = [cs] := by
  simp [tokenChars, cut_of_token h, pushToken, nonempty]

def trimChars (cs : List Char) : List Char :=
  ((cs.dropWhile isBlank).reverse.dropWhile isBlank).reverse

def trim (text : String) : String := String.ofList (trimChars text.toList)

end DecimalMachine.Text
