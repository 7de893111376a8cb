import Mathlib.Data.List.Basic
import Switchboard.Json.Printer
import Switchboard.Json.Reader

/-!
# What is written can be read

Every JSON value is read back from its spelling, compact or over several lines.
The reader works in two stages, and so does the proof. The tokens of a value are
given by `spelling`, which follows the value and knows nothing of characters: the
second stage puts them together again (`foldlM_spelling`). The first stage has to
find these tokens in the characters. The two printers differ in nothing but the
blanks they write between tokens, so both are instances of one printer that is told
which (`laidOut`), and the scanner is followed through that one.

The scanner cuts a word off only when it sees the next character, so where it ends
depends on what comes next. `Spells` therefore does not ask it to end outside of
words, but to hold the right tokens for whoever looks at the end of the text or at a
character that ends words (`Scan.Settles`). Characters with this property can be put
behind one another (`Spells.append`).
-/

namespace Switchboard.Json

/-! ## Words -/

/-- The digits of a number write that number. -/
theorem decimalValue_toDigits (n : Nat) : Text.decimalValue (Nat.toDigits 10 n) = n := by
  have hstep : (fun (m : Nat) (c : Char) => m * 10 + (c.toNat - '0'.toNat))
      = fun m c => 10 * m + (c.toNat - '0'.toNat) := by
    funext m c
    rw [Nat.mul_comm]
  unfold Text.decimalValue
  rw [hstep, ← Nat.ofDigitChars_eq_foldl, Nat.ofDigitChars_ten_toDigits]

theorem isDigit_of_mem_toDigits {n : Nat} {c : Char} (h : c ∈ Nat.toDigits 10 n) :
    c.isDigit = true :=
  Nat.isDigit_of_mem_toDigits (by decide) (by decide) h

/-- A number is written without leading zeros. -/
theorem head_toDigits_ne_zero {n : Nat} (h : n ≠ 0) : (Nat.toDigits 10 n).head? ≠ some '0' := by
  induction n using Nat.strongRecOn with
  | _ n ih =>
    rw [Nat.toDigits_eq_if (by decide)]
    split
    · rename_i hlt
      intro hzero
      exact h (Nat.digitChar_eq_zero.mp (Option.some.inj hzero))
    · rename_i hge
      have hsmaller : n / 10 < n := Nat.div_lt_self (Nat.pos_of_ne_zero h) (by decide)
      rw [List.head?_append_of_ne_nil _ Nat.toDigits_ne_nil]
      exact ih _ hsmaller (by omega)

theorem toList_repr (n : Nat) : (Nat.repr n).toList = Nat.toDigits 10 n := by
  rw [Nat.repr_eq_ofList_toDigits, String.toList_ofList]

/-- What `unsigned?` reads of digits and what stands behind them. -/
theorem unsigned?_toDigits (negative : Bool) (n : Nat) (rest : List Char)
    (stops : ∀ c ∈ rest.head?, c.isDigit = false) :
    unsigned? negative (Nat.toDigits 10 n ++ rest)
      = if rest = [] then
          if negative then some (if n = 0 then .real 0 0 else .int (-n)) else some (.int n)
        else realTail? (Nat.toDigits 10 n) rest := by
  have htake : (Nat.toDigits 10 n ++ rest).takeWhile Char.isDigit = Nat.toDigits 10 n := by
    rw [List.takeWhile_append_of_pos fun c hc => isDigit_of_mem_toDigits hc]
    cases rest with
    | nil => rw [List.takeWhile_nil, List.append_nil]
    | cons c rest =>
      rw [List.takeWhile_cons_of_neg (by simpa using stops c rfl), List.append_nil]
  have hdrop : (Nat.toDigits 10 n ++ rest).dropWhile Char.isDigit = rest := by
    rw [List.dropWhile_append_of_pos fun c hc => isDigit_of_mem_toDigits hc]
    cases rest with
    | nil => rfl
    | cons c rest => rw [List.dropWhile_cons_of_neg (by simpa using stops c rfl)]
  have hwhole : ¬ (Nat.toDigits 10 n = []
      ∨ (Nat.toDigits 10 n).head? = some '0' ∧ Nat.toDigits 10 n ≠ ['0']) := by
    rintro (hnil | ⟨hzero, hne⟩)
    · exact Nat.toDigits_ne_nil hnil
    · by_cases hn : n = 0
      · subst hn
        exact hne rfl
      · exact head_toDigits_ne_zero hn hzero
  unfold unsigned?
  dsimp only
  rw [htake, hdrop, if_neg hwhole, decimalValue_toDigits]

/-- No digit is a minus sign. -/
theorem toDigits_ne_minus (n : Nat) (rest : List Char) :
    ∃ c cs, Nat.toDigits 10 n ++ rest = c :: cs ∧ c.isDigit = true := by
  cases hd : Nat.toDigits 10 n with
  | nil => exact absurd hd Nat.toDigits_ne_nil
  | cons c cs =>
    have hc : c ∈ Nat.toDigits 10 n := by
      rw [hd]
      exact List.mem_cons_self
    exact ⟨c, cs ++ rest, rfl, isDigit_of_mem_toDigits hc⟩

/-- A number that does not begin with a minus sign is read without one. -/
theorem number?_of_isDigit {c : Char} (cs : List Char) (h : c.isDigit = true) :
    number? (c :: cs) = unsigned? false (c :: cs) := by
  unfold number?
  split
  · rename_i heq
    cases heq
    cases h
  · rfl

/-- **An integer is read back.** -/
theorem number?_intChars (n : Int) : number? (intChars n) = some (.int n) := by
  have hread : ∀ negative (m : Nat), unsigned? negative (Nat.toDigits 10 m)
      = if negative then some (if m = 0 then .real 0 0 else .int (-m)) else some (.int m) := by
    intro negative m
    have h := unsigned?_toDigits negative m [] nofun
    rwa [List.append_nil, if_pos rfl] at h
  unfold intChars
  split
  · rename_i hneg
    show unsigned? true (Nat.repr n.natAbs).toList = _
    rw [toList_repr, hread, if_pos rfl, if_neg (by omega)]
    exact congrArg (fun m => some (Json.int m)) (by omega)
  · rename_i hpos
    obtain ⟨c, cs, hcs, hc⟩ := toDigits_ne_minus n.natAbs []
    rw [List.append_nil] at hcs
    rw [toList_repr, hcs, number?_of_isDigit cs hc, ← hcs, hread]
    exact congrArg (fun m => some (Json.int m)) (by omega)

theorem exponent?_minus {ds : List Char} (h : ds ≠ [] ∧ ds.all Char.isDigit = true) :
    exponent? ('e' :: '-' :: ds) = some (-(Text.decimalValue ds : Int)) :=
  if_pos h

/-- An exponent without a sign. -/
theorem exponent?_of_isDigit {c : Char} {cs : List Char} (h : (c :: cs).all Char.isDigit = true) :
    exponent? ('e' :: c :: cs) = some (Text.decimalValue (c :: cs) : Int) := by
  have hc : c.isDigit = true := List.all_eq_true.mp h c List.mem_cons_self
  have hminus : c ≠ '-' := by
    rintro rfl
    cases hc
  have hplus : c ≠ '+' := by
    rintro rfl
    cases hc
  simpa [exponent?, hminus, hplus] using h

/-- The exponent of a number is read back. -/
theorem exponent?_intChars (e : Int) : exponent? ('e' :: intChars e) = some e := by
  have hdigits : (Nat.toDigits 10 e.natAbs).all Char.isDigit = true :=
    List.all_eq_true.mpr fun c hc => isDigit_of_mem_toDigits hc
  unfold intChars
  rw [toList_repr]
  split
  · rw [exponent?_minus ⟨Nat.toDigits_ne_nil, hdigits⟩, decimalValue_toDigits]
    exact congrArg some (by omega)
  · obtain ⟨c, cs, hcs, -⟩ := toDigits_ne_minus e.natAbs []
    rw [List.append_nil] at hcs
    rw [hcs] at hdigits ⊢
    rw [exponent?_of_isDigit hdigits, ← hcs, decimalValue_toDigits]
    exact congrArg some (by omega)

/-- **A number with an exponent is read back.** -/
theorem number?_realChars (d : Nat) (e : Int) :
    number? (intChars d ++ 'e' :: intChars e) = some (.real d e) := by
  have hchars : intChars d = Nat.toDigits 10 d := by
    unfold intChars
    rw [if_neg (by omega), toList_repr]
    rfl
  obtain ⟨c, cs, hcs, hc⟩ := toDigits_ne_minus d ('e' :: intChars e)
  rw [hchars, hcs, number?_of_isDigit cs hc, ← hcs, unsigned?_toDigits]
  · rw [if_neg (List.cons_ne_nil _ _)]
    show (exponent? ('e' :: intChars e)).map _ = _
    rw [exponent?_intChars, decimalValue_toDigits]
    rfl
  · intro c hc
    obtain rfl := Option.some.inj hc
    decide

/-- No literal begins like a number. -/
theorem ofWord?_of_number? {c : Char} {cs : List Char} {v : Json} (hc : c.isDigit = true ∨ c = '-')
    (h : number? (c :: cs) = some v) : Token.ofWord? (c :: cs) = some (.word v) := by
  have hne : ∀ {d : Char} {ds : List Char}, d.isDigit = false → d ≠ '-' → c :: cs ≠ d :: ds := by
    intro d ds hd hminus heq
    obtain ⟨rfl, -⟩ := List.cons.inj heq
    rcases hc with hc | hc
    · rw [hd] at hc
      cases hc
    · exact hminus hc
  unfold Token.ofWord?
  rw [if_neg (hne (by decide) (by decide)), if_neg (hne (by decide) (by decide)),
    if_neg (hne (by decide) (by decide)), h]
  rfl

/-! ## From tokens to values -/

mutual

/-- **The tokens that spell a value.** -/
def spelling : Json → List Token
  | .null => [.word .null]
  | .bool b => [.word (.bool b)]
  | .int n => [.word (.int n)]
  | .real d e => [.word (.real d e)]
  | .str t => [.quoted t]
  | .arr [] => [.openArray, .closeArray]
  | .arr (v :: vs) => .openArray :: (spelling v ++ spellingItems vs)
  | .obj [] => [.openObject, .closeObject]
  | .obj ((k, v) :: ms) =>
    .openObject :: .quoted k :: .colon :: (spelling v ++ spellingMembers ms)

/-- The tokens that spell the further items of an array and its end. -/
def spellingItems : List Json → List Token
  | [] => [.closeArray]
  | v :: vs => .comma :: (spelling v ++ spellingItems vs)

/-- The tokens that spell the further members of an object and its end. -/
def spellingMembers : List (Option String × Json) → List Token
  | [] => [.closeObject]
  | (k, v) :: ms => .comma :: .quoted k :: .colon :: (spelling v ++ spellingMembers ms)

end

/-- Where the first item of an array may stand, a value is read like anywhere else. -/
theorem foldlM_spelling_firstItem (stack : List Reader.Frame) (v : Json) :
    (spelling v).foldlM Reader.step (.firstItem stack)
      = (spelling v).foldlM Reader.step (.value (.array [] :: stack)) := by
  unfold spelling
  split <;> rfl

mutual

/-- **The tokens of a value are put together to the value**, wherever one is expected. -/
theorem foldlM_spelling (stack : List Reader.Frame) (v : Json) :
    (spelling v).foldlM Reader.step (.value stack) = some (.after stack v) := by
  match v with
  | .null => rfl
  | .bool b => rfl
  | .int n => rfl
  | .real d e => rfl
  | .str t => rfl
  | .arr [] => rfl
  | .arr (v :: vs) =>
    rw [spelling]
    show (spelling v ++ spellingItems vs).foldlM Reader.step (.firstItem stack) = _
    rw [List.foldlM_append, foldlM_spelling_firstItem, foldlM_spelling]
    exact foldlM_spellingItems stack [] v vs
  | .obj [] => rfl
  | .obj ((k, v) :: ms) =>
    rw [spelling]
    show (spelling v ++ spellingMembers ms).foldlM Reader.step (.value (.object [] k :: stack)) = _
    rw [List.foldlM_append, foldlM_spelling]
    exact foldlM_spellingMembers stack [] k v ms

/-- The further items of an array are added to those already read. -/
theorem foldlM_spellingItems (stack : List Reader.Frame) (items : List Json) (v : Json)
    (vs : List Json) :
    (spellingItems vs).foldlM Reader.step (.after (.array items :: stack) v)
      = some (.after stack (.arr ((v :: items).reverse ++ vs))) := by
  match vs with
  | [] => rw [List.append_nil]; rfl
  | w :: vs =>
    rw [spellingItems]
    show (spelling w ++ spellingItems vs).foldlM Reader.step
      (.value (.array (v :: items) :: stack)) = _
    rw [List.foldlM_append, foldlM_spelling]
    show (spellingItems vs).foldlM Reader.step (.after (.array (v :: items) :: stack) w) = _
    rw [foldlM_spellingItems, List.reverse_cons, List.reverse_cons]
    simp only [List.append_assoc, List.cons_append, List.nil_append]

/-- The further members of an object are added to those already read. -/
theorem foldlM_spellingMembers (stack : List Reader.Frame)
    (members : List (Option String × Json)) (k : Option String) (v : Json)
    (ms : List (Option String × Json)) :
    (spellingMembers ms).foldlM Reader.step (.after (.object members k :: stack) v)
      = some (.after stack (.obj (((k, v) :: members).reverse ++ ms))) := by
  match ms with
  | [] => rw [List.append_nil]; rfl
  | (l, w) :: ms =>
    rw [spellingMembers]
    show (spelling w ++ spellingMembers ms).foldlM Reader.step
      (.value (.object ((k, v) :: members) l :: stack)) = _
    rw [List.foldlM_append, foldlM_spelling]
    show (spellingMembers ms).foldlM Reader.step
      (.after (.object ((k, v) :: members) l :: stack) w) = _
    rw [foldlM_spellingMembers, List.reverse_cons, List.reverse_cons]
    simp only [List.append_assoc, List.cons_append, List.nil_append]

end

/-- The tokens of a value are a document, and the value is what it says. -/
theorem ofTokens?_spelling (v : Json) : ofTokens? (spelling v) = some v := by
  unfold ofTokens? Reader.start
  rw [foldlM_spelling]
  rfl

/-! ## One printer for both layouts -/

/-- **The blanks between tokens**: in front of the items of a container and its end,
and between a colon and a value. -/
structure Layout where
  /-- In front of what stands at a level. -/
  gap : Nat → List Char
  /-- Behind a colon. -/
  space : List Char
  /-- Gaps are blank. -/
  gap_blank : ∀ level, ∀ c ∈ gap level, isBlank c = true
  /-- Spaces are blank. -/
  space_blank : ∀ c ∈ space, isBlank c = true

namespace Layout

/-- No blanks. -/
def tight : Layout where
  gap _ := []
  space := []
  gap_blank _ := nofun
  space_blank := nofun

/-- A line for each item. -/
def lines : Layout where
  gap := newline
  space := [' ']
  gap_blank level c hc := by
    rcases List.mem_cons.mp hc with rfl | hc
    · rfl
    · rw [List.eq_of_mem_replicate hc]
      rfl
  space_blank c hc := by
    rw [List.mem_singleton.mp hc]
    rfl

end Layout

/-- The characters of a literal. -/
def boolChars : Bool → List Char
  | true => ['t', 'r', 'u', 'e']
  | false => ['f', 'a', 'l', 's', 'e']

mutual

/-- **The characters of a value in a layout.** -/
def laidOut (l : Layout) (level : Nat) : Json → List Char
  | .null => ['n', 'u', 'l', 'l']
  | .bool b => boolChars b
  | .int n => intChars n
  | .real d e => intChars d ++ 'e' :: intChars e
  | .str t => quotedChars t
  | .arr [] => ['[', ']']
  | .arr (v :: vs) =>
    '[' :: (l.gap (level + 1) ++ (laidOut l (level + 1) v ++ laidOutItems l level vs))
  | .obj [] => ['\x7b', '\x7d']
  | .obj ((k, v) :: ms) =>
    '\x7b' :: (l.gap (level + 1) ++ (quotedChars k ++ ':' :: (l.space ++
      (laidOut l (level + 1) v ++ laidOutMembers l level ms))))

/-- The further items of an array in a layout, and its end. -/
def laidOutItems (l : Layout) (level : Nat) : List Json → List Char
  | [] => l.gap level ++ [']']
  | v :: vs =>
    ',' :: (l.gap (level + 1) ++ (laidOut l (level + 1) v ++ laidOutItems l level vs))

/-- The further members of an object in a layout, and its end. -/
def laidOutMembers (l : Layout) (level : Nat) : List (Option String × Json) → List Char
  | [] => l.gap level ++ ['\x7d']
  | (k, v) :: ms =>
    ',' :: (l.gap (level + 1) ++ (quotedChars k ++ ':' :: (l.space ++
      (laidOut l (level + 1) v ++ laidOutMembers l level ms))))

end

mutual

/-- The compact printer leaves no blanks. -/
theorem compactChars_eq (level : Nat) (v : Json) :
    compactChars v = laidOut .tight level v := by
  match v with
  | .null => rfl
  | .bool true => rfl
  | .bool false => rfl
  | .int n => rfl
  | .real d e => rfl
  | .str t => rfl
  | .arr [] => rfl
  | .arr (v :: vs) =>
    rw [compactChars, laidOut, compactChars_eq (level + 1), compactItems_eq level]
    rfl
  | .obj [] => rfl
  | .obj ((k, v) :: ms) =>
    rw [compactChars, laidOut, compactChars_eq (level + 1), compactMembers_eq level]
    simp only [List.append_assoc, List.cons_append]
    rfl

theorem compactItems_eq (level : Nat) (vs : List Json) :
    compactItems vs = laidOutItems .tight level vs := by
  match vs with
  | [] => rfl
  | v :: vs =>
    rw [compactItems, laidOutItems, compactChars_eq (level + 1), compactItems_eq level]
    rfl

theorem compactMembers_eq (level : Nat) (ms : List (Option String × Json)) :
    compactMembers ms = laidOutMembers .tight level ms := by
  match ms with
  | [] => rfl
  | (k, v) :: ms =>
    rw [compactMembers, laidOutMembers, compactChars_eq (level + 1), compactMembers_eq level]
    simp only [List.append_assoc, List.cons_append]
    rfl

end

mutual

/-- The other printer gives each item a line. -/
theorem prettyChars_eq (level : Nat) (v : Json) :
    prettyChars level v = laidOut .lines level v := by
  match v with
  | .null => rfl
  | .bool true => rfl
  | .bool false => rfl
  | .int n => rfl
  | .real d e => rfl
  | .str t => rfl
  | .arr [] => rfl
  | .arr (v :: vs) =>
    rw [prettyChars, laidOut, prettyChars_eq (level + 1), prettyItems_eq level]
    simp only [List.append_assoc, List.cons_append]
    rfl
  | .obj [] => rfl
  | .obj ((k, v) :: ms) =>
    rw [prettyChars, laidOut, prettyChars_eq (level + 1), prettyMembers_eq level]
    simp only [List.append_assoc, List.cons_append]
    rfl

theorem prettyItems_eq (level : Nat) (vs : List Json) :
    prettyItems level vs = laidOutItems .lines level vs := by
  match vs with
  | [] => rfl
  | v :: vs =>
    rw [prettyItems, laidOutItems, prettyChars_eq (level + 1), prettyItems_eq level]
    simp only [List.append_assoc, List.cons_append]
    rfl

theorem prettyMembers_eq (level : Nat) (ms : List (Option String × Json)) :
    prettyMembers level ms = laidOutMembers .lines level ms := by
  match ms with
  | [] => rfl
  | (k, v) :: ms =>
    rw [prettyMembers, laidOutMembers, prettyChars_eq (level + 1), prettyMembers_eq level]
    simp only [List.append_assoc, List.cons_append]
    rfl

end

/-! ## From characters to tokens -/

/-- **What a scanner stands for**: these tokens, the last one first, of which the
last may be a word that is still to be cut off. -/
structure Scan.Settles (s : Scan) (ts : List Token) : Prop where
  /-- The text may end here. -/
  finish : s.finish? = some ts.reverse
  /-- A character that ends words finds all the tokens cut off. -/
  step : ∀ c, Scan.endsWord c = true → s.step c = some (Scan.outside ts c)

/-- **Characters spell tokens**: the scanner cuts them into these, wherever a token
may begin. -/
def Spells (cs : List Char) (ts : List Token) : Prop :=
  ∀ before, ∃ s, cs.foldlM Scan.step ⟨.outside, before⟩ = some s
    ∧ s.Settles (ts.reverse ++ before)

/-- What the scanner does with characters that it ends outside of. -/
theorem Spells.of_outside {cs : List Char} {ts : List Token}
    (h : ∀ before, cs.foldlM Scan.step ⟨.outside, before⟩
      = some ⟨.outside, ts.reverse ++ before⟩) : Spells cs ts :=
  fun before => ⟨_, h before, rfl, fun _ _ => rfl⟩

theorem Spells.nil : Spells [] [] := Spells.of_outside fun _ => rfl

/-- Characters that spell tokens may be followed by a character that ends words. -/
theorem Spells.append {cs ds : List Char} {ts us : List Token} (hcs : Spells cs ts)
    (hds : Spells ds us) (hends : ∀ c ∈ ds.head?, Scan.endsWord c = true) :
    Spells (cs ++ ds) (ts ++ us) := by
  intro before
  obtain ⟨s, hs, hsettles⟩ := hcs before
  rw [List.foldlM_append, hs, List.reverse_append, List.append_assoc]
  match ds with
  | [] =>
    obtain ⟨t, ht, htsettles⟩ := hds (ts.reverse ++ before)
    obtain rfl := Option.some.inj ht
    refine ⟨s, rfl, ?_, ?_⟩
    · rw [hsettles.finish, ← htsettles.finish]
      rfl
    · intro c hc
      rw [hsettles.step c hc, ← htsettles.step c hc]
      rfl
  | c :: ds =>
    obtain ⟨t, ht, htsettles⟩ := hds (ts.reverse ++ before)
    refine ⟨t, ?_, htsettles⟩
    rw [List.foldlM_cons] at ht
    show (c :: ds).foldlM Scan.step s = some t
    rw [List.foldlM_cons, hsettles.step c (hends c rfl), ← ht]
    rfl

/-- A punctuation character is a token outside strings and words. -/
theorem Scan.outside_of_punctuation {c : Char} {t : Token} (h : punctuation? c = some t)
    (ts : List Token) : Scan.outside ts c = ⟨.outside, t :: ts⟩ := by
  unfold punctuation? at h
  split at h <;> cases h <;> rfl

/-- A punctuation character spells its token, whatever stands behind it. -/
theorem Spells.punctuation {c : Char} {t : Token} {cs : List Char} {ts : List Token}
    (hc : punctuation? c = some t) (h : Spells cs ts) : Spells (c :: cs) (t :: ts) := by
  intro before
  obtain ⟨s, hs, hsettles⟩ := h (t :: before)
  refine ⟨s, ?_, ?_⟩
  · rw [← Scan.outside_of_punctuation hc] at hs
    exact hs
  · rwa [List.reverse_cons, List.append_assoc]

/-- Blanks between tokens spell nothing. -/
theorem Spells.blanks {bs cs : List Char} {ts : List Token}
    (hbs : ∀ c ∈ bs, isBlank c = true) (h : Spells cs ts) : Spells (bs ++ cs) ts := by
  intro before
  induction bs with
  | nil => exact h before
  | cons b bs ih =>
    obtain ⟨s, hs, hsettles⟩ := ih fun c hc => hbs c (List.mem_cons_of_mem b hc)
    refine ⟨s, ?_, hsettles⟩
    have hb : Scan.step ⟨.outside, before⟩ b = some ⟨.outside, before⟩ := by
      show some (Scan.outside before b) = _
      unfold Scan.outside
      rw [if_pos (hbs b List.mem_cons_self)]
    rw [List.cons_append, List.foldlM_cons, hb]
    exact hs

/-- A word grows as long as nothing ends it. -/
theorem Scan.foldlM_word (ts : List Token) (read cs : List Char)
    (h : ∀ c ∈ cs, endsWord c = false) :
    cs.foldlM Scan.step ⟨.inWord read, ts⟩ = some ⟨.inWord (cs.reverse ++ read), ts⟩ := by
  induction cs generalizing read with
  | nil => rfl
  | cons c cs ih =>
    have hc : Scan.step ⟨.inWord read, ts⟩ c = some ⟨.inWord (c :: read), ts⟩ := by
      show (if endsWord c = true then _ else _) = _
      rw [h c List.mem_cons_self]
      rfl
    rw [List.foldlM_cons, hc, List.reverse_cons, List.append_assoc]
    exact ih (c :: read) fun d hd => h d (List.mem_cons_of_mem c hd)

/-- **A word spells what it reads as.** -/
theorem Spells.word {c : Char} {cs : List Char} {t : Token}
    (hwhole : (c :: cs).any Scan.endsWord = false) (ht : Token.ofWord? (c :: cs) = some t) :
    Spells (c :: cs) [t] := by
  intro before
  have h : ∀ d ∈ c :: cs, Scan.endsWord d = false := fun d hd =>
    Bool.eq_false_iff.mpr (List.any_eq_false.mp hwhole d hd)
  have hbegin : Scan.step ⟨.outside, before⟩ c = some ⟨.inWord [c], before⟩ := by
    have hc := h c List.mem_cons_self
    unfold Scan.endsWord at hc
    rw [Bool.or_eq_false_iff, Bool.or_eq_false_iff, Option.isSome_eq_false_iff,
      Option.isNone_iff_eq_none] at hc
    show some (Scan.outside before c) = _
    unfold Scan.outside
    rw [hc.1.1, hc.2, if_neg Bool.false_ne_true, if_neg (of_decide_eq_false hc.1.2)]
  have hread : (cs.reverse ++ [c]).reverse = c :: cs := by
    rw [List.reverse_append, List.reverse_reverse]
    rfl
  refine ⟨⟨.inWord (cs.reverse ++ [c]), before⟩, ?_, ?_, ?_⟩
  · rw [List.foldlM_cons, hbegin]
    exact Scan.foldlM_word before [c] cs fun d hd => h d (List.mem_cons_of_mem c hd)
  · show (Token.ofWord? _).map _ = _
    rw [hread, ht]
    rfl
  · intro d hd
    show (if Scan.endsWord d = true then _ else _) = _
    rw [if_pos hd, hread, ht]
    rfl

/-! ### Strings -/

theorem hexValue?_hexDigit : ∀ n < 16, Text.hexValue? (Text.hexDigit n) = some n := by
  decide

/-- A control character without an escape of its own is read back from its code unit. -/
theorem Scan.foldlM_unitEscape (ts : List Token) (read : List Piece) {c : Char}
    (h : c.toNat < 0x20) :
    ['\\', 'u', '0', '0', Text.hexDigit (c.toNat / 16), Text.hexDigit (c.toNat % 16)].foldlM
        Scan.step ⟨.inText read, ts⟩
      = some ⟨.inText (.char c :: read), ts⟩ := by
  have hunit : Piece.ofUnit (16 * (c.toNat / 16) + c.toNat % 16) = .char c := by
    rw [Nat.div_add_mod]
    unfold Piece.ofUnit
    rw [if_neg (by omega), if_neg (by omega), Char.ofNat_toNat]
  have hhigh : Scan.step ⟨.inUnit read 2 0, ts⟩ (Text.hexDigit (c.toNat / 16))
      = some ⟨.inUnit read 3 (c.toNat / 16), ts⟩ := by
    show (Text.hexValue? _).map _ = _
    rw [hexValue?_hexDigit _ (by omega)]
    show some (Scan.mk (.inUnit read 3 (16 * 0 + c.toNat / 16)) ts) = _
    rw [Nat.mul_zero, Nat.zero_add]
  have hlow : Scan.step ⟨.inUnit read 3 (c.toNat / 16), ts⟩ (Text.hexDigit (c.toNat % 16))
      = some ⟨.inText (.char c :: read), ts⟩ := by
    show (Text.hexValue? _).map _ = _
    rw [hexValue?_hexDigit _ (by omega)]
    show some (Scan.mk (.inText (Piece.ofUnit (16 * (c.toNat / 16) + c.toNat % 16) :: read)) ts)
      = _
    rw [hunit]
  show [Text.hexDigit (c.toNat / 16), Text.hexDigit (c.toNat % 16)].foldlM Scan.step
    ⟨.inUnit read 2 0, ts⟩ = _
  rw [List.foldlM_cons, hhigh]
  show [Text.hexDigit (c.toNat % 16)].foldlM Scan.step ⟨.inUnit read 3 (c.toNat / 16), ts⟩ = _
  rw [List.foldlM_cons, hlow]
  rfl

/-- **A written character is read back** inside a string, as itself or by its escape. -/
theorem Scan.foldlM_escapeChar (ts : List Token) (read : List Piece) (c : Char) :
    (escapeChar c).foldlM Scan.step ⟨.inText read, ts⟩
      = some ⟨.inText (.char c :: read), ts⟩ := by
  unfold escapeChar
  -- every character with an escape letter of its own is a computation
  iterate 7
    split
    · rename_i hc
      subst hc
      rfl
  rename_i hquote hslash _ _ _ _ _
  split
  · rename_i hcontrol
    exact Scan.foldlM_unitEscape ts read hcontrol
  · rename_i hcontrol
    rw [List.foldlM_cons]
    show ((if c = '"' then _ else _) >>= _) = _
    rw [if_neg hquote, if_neg hslash, if_neg hcontrol]
    rfl

/-- The characters of a string are read back. -/
theorem Scan.foldlM_escapeChars (ts : List Token) (read : List Piece) (cs : List Char) :
    (cs.flatMap escapeChar).foldlM Scan.step ⟨.inText read, ts⟩
      = some ⟨.inText ((cs.map .char).reverse ++ read), ts⟩ := by
  induction cs generalizing read with
  | nil => rfl
  | cons c cs ih =>
    rw [List.flatMap_cons, List.foldlM_append, Scan.foldlM_escapeChar, List.map_cons,
      List.reverse_cons, List.append_assoc]
    exact ih (.char c :: read)

theorem Piece.decode?_chars (cs : List Char) : Piece.decode? (cs.map .char) = some cs := by
  induction cs with
  | nil => rfl
  | cons c cs ih =>
    rw [List.map_cons, Piece.decode?, ih]
    rfl

/-- **A string in quotes spells its text**, if it denotes one. -/
theorem Spells.quoted (t : Option String) : Spells (quotedChars t) [.quoted t] := by
  refine Spells.of_outside fun before => ?_
  match t with
  | none => rfl
  | some s =>
    show (s.toList.flatMap escapeChar ++ ['"']).foldlM Scan.step ⟨.inText [], before⟩ = _
    rw [List.foldlM_append, Scan.foldlM_escapeChars, List.append_nil]
    show some (Scan.mk .outside (.quoted ((Piece.decode? _).map String.ofList) :: before)) = _
    rw [List.reverse_reverse, Piece.decode?_chars]
    show some (Scan.mk .outside (.quoted (some (String.ofList s.toList)) :: before)) = _
    rw [String.ofList_toList]
    rfl

/-! ### Numbers -/

theorem Scan.endsWord_of_isDigit {c : Char} (h : c.isDigit = true) : endsWord c = false := by
  rw [← Bool.not_eq_true]
  intro hends
  unfold endsWord isBlank punctuation? at hends
  split at hends
  case h_7 =>
    simp only [Bool.or_eq_true, decide_eq_true_eq, Option.isSome_none, Bool.false_eq_true,
      or_false] at hends
    rcases hends with ((((rfl | rfl) | rfl) | rfl) | rfl) <;> cases h
  all_goals cases h

/-- Integers are words. -/
theorem Scan.endsWord_of_mem_intChars {n : Int} {c : Char} (h : c ∈ intChars n) :
    endsWord c = false := by
  unfold intChars at h
  rw [toList_repr] at h
  split at h
  · rcases List.mem_cons.mp h with rfl | h
    · rfl
    · exact endsWord_of_isDigit (isDigit_of_mem_toDigits h)
  · exact endsWord_of_isDigit (isDigit_of_mem_toDigits h)

/-- An integer begins with a digit or a minus sign. -/
theorem intChars_eq_cons (n : Int) :
    ∃ c cs, intChars n = c :: cs ∧ (c.isDigit = true ∨ c = '-') := by
  unfold intChars
  rw [toList_repr]
  split
  · exact ⟨_, _, rfl, .inr rfl⟩
  · obtain ⟨c, cs, hcs, hc⟩ := toDigits_ne_minus n.natAbs []
    rw [List.append_nil] at hcs
    exact ⟨c, cs, hcs, .inl hc⟩

theorem Spells.int (n : Int) : Spells (intChars n) [.word (.int n)] := by
  obtain ⟨c, cs, hcs, hc⟩ := intChars_eq_cons n
  have hread := number?_intChars n
  have hword : (intChars n).any Scan.endsWord = false :=
    List.any_eq_false.mpr fun d hd => Bool.eq_false_iff.mp (Scan.endsWord_of_mem_intChars hd)
  rw [hcs] at hread hword ⊢
  exact Spells.word hword (ofWord?_of_number? hc hread)

theorem Spells.real (d : Nat) (e : Int) :
    Spells (intChars d ++ 'e' :: intChars e) [.word (.real d e)] := by
  obtain ⟨c, cs, hcs, hc⟩ := intChars_eq_cons d
  have hread := number?_realChars d e
  have hword : (intChars d ++ 'e' :: intChars e).any Scan.endsWord = false := by
    refine List.any_eq_false.mpr fun x hx => Bool.eq_false_iff.mp ?_
    rcases List.mem_append.mp hx with hx | hx
    · exact Scan.endsWord_of_mem_intChars hx
    · rcases List.mem_cons.mp hx with rfl | hx
      · rfl
      · exact Scan.endsWord_of_mem_intChars hx
  rw [hcs] at hread hword ⊢
  exact Spells.word hword (ofWord?_of_number? hc hread)

/-! ### Values -/

namespace Layout

variable (l : Layout) (level : Nat)

theorem endsWord_of_isBlank {c : Char} (h : isBlank c = true) : Scan.endsWord c = true := by
  unfold Scan.endsWord
  rw [h]
  rfl

/-- The end of a container ends words, with or without a gap in front of it. -/
theorem endsWord_head_gap {c : Char} (hc : Scan.endsWord c = true) :
    ∀ d ∈ (l.gap level ++ [c]).head?, Scan.endsWord d = true := by
  intro d hd
  have hblank := l.gap_blank level
  cases hgap : l.gap level with
  | nil =>
    rw [hgap] at hd
    obtain rfl := Option.some.inj hd
    exact hc
  | cons b bs =>
    rw [hgap] at hd hblank
    obtain rfl := Option.some.inj hd
    exact endsWord_of_isBlank (hblank _ List.mem_cons_self)

/-- What stands behind an item ends words. -/
theorem endsWord_head_laidOutItems (vs : List Json) :
    ∀ c ∈ (laidOutItems l level vs).head?, Scan.endsWord c = true := by
  match vs with
  | [] => exact l.endsWord_head_gap level rfl
  | v :: vs =>
    intro c hc
    obtain rfl := Option.some.inj hc
    rfl

theorem endsWord_head_laidOutMembers (ms : List (Option String × Json)) :
    ∀ c ∈ (laidOutMembers l level ms).head?, Scan.endsWord c = true := by
  match ms with
  | [] => exact l.endsWord_head_gap level rfl
  | (k, v) :: ms =>
    intro c hc
    obtain rfl := Option.some.inj hc
    rfl

end Layout

mutual

/-- **A laid out value spells its tokens**, whatever the layout. -/
theorem spells_laidOut (l : Layout) (level : Nat) (v : Json) :
    Spells (laidOut l level v) (spelling v) := by
  match v with
  | .null => exact Spells.word rfl rfl
  | .bool true => exact Spells.word rfl rfl
  | .bool false => exact Spells.word rfl rfl
  | .int n => exact Spells.int n
  | .real d e => exact Spells.real d e
  | .str t => exact Spells.quoted t
  | .arr [] => exact .punctuation rfl (.punctuation rfl .nil)
  | .arr (v :: vs) =>
    exact .punctuation rfl (.blanks (l.gap_blank _)
      ((spells_laidOut l (level + 1) v).append (spells_laidOutItems l level vs)
        (l.endsWord_head_laidOutItems level vs)))
  | .obj [] => exact .punctuation rfl (.punctuation rfl .nil)
  | .obj ((k, v) :: ms) =>
    exact .punctuation rfl (.blanks (l.gap_blank _) ((Spells.quoted k).append
      (.punctuation rfl (.blanks l.space_blank
        ((spells_laidOut l (level + 1) v).append (spells_laidOutMembers l level ms)
        (l.endsWord_head_laidOutMembers level ms)))) (fun _ h => by cases h; rfl)))

theorem spells_laidOutItems (l : Layout) (level : Nat) (vs : List Json) :
    Spells (laidOutItems l level vs) (spellingItems vs) := by
  match vs with
  | [] => exact .blanks (l.gap_blank _) (.punctuation rfl .nil)
  | v :: vs =>
    exact .punctuation rfl (.blanks (l.gap_blank _)
      ((spells_laidOut l (level + 1) v).append (spells_laidOutItems l level vs)
        (l.endsWord_head_laidOutItems level vs)))

theorem spells_laidOutMembers (l : Layout) (level : Nat) (ms : List (Option String × Json)) :
    Spells (laidOutMembers l level ms) (spellingMembers ms) := by
  match ms with
  | [] => exact .blanks (l.gap_blank _) (.punctuation rfl .nil)
  | (k, v) :: ms =>
    exact .punctuation rfl (.blanks (l.gap_blank _) ((Spells.quoted k).append
      (.punctuation rfl (.blanks l.space_blank
        ((spells_laidOut l (level + 1) v).append (spells_laidOutMembers l level ms)
        (l.endsWord_head_laidOutMembers level ms)))) (fun _ h => by cases h; rfl)))

end

/-- A text is read as the tokens that it spells. -/
theorem Spells.tokens? {cs : List Char} {ts : List Token} (h : Spells cs ts) :
    Json.tokens? cs = some ts := by
  obtain ⟨s, hs, hsettles⟩ := h []
  unfold Json.tokens? Scan.start
  rw [hs]
  show s.finish? = _
  rw [hsettles.finish, List.append_nil, List.reverse_reverse]

/-- **A value is read back from any layout.** -/
theorem parse_laidOut (l : Layout) (level : Nat) (v : Json) :
    parse (String.ofList (laidOut l level v)) = some v := by
  unfold parse
  rw [String.toList_ofList, (spells_laidOut l level v).tokens?]
  exact ofTokens?_spelling v

/-- **What is written without blanks can be read.** -/
theorem parse_compact (v : Json) : parse v.compact = some v := by
  unfold compact
  rw [compactChars_eq 0]
  exact parse_laidOut .tight 0 v

/-- **What is written over several lines can be read.** -/
theorem parse_pretty (v : Json) : parse v.pretty = some v := by
  unfold pretty
  rw [prettyChars_eq 0]
  exact parse_laidOut .lines 0 v

end Switchboard.Json
