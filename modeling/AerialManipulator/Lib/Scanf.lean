/-
Reading texts with a format.

A format is a list of directives, and `scan` gives what is stored before the first directive that
fails. A number is an optional sign and the longest run of digits; white space in front of it is
skipped, and the end of a line is white space.

* `Numeral`, `Entry` — numbers as they are written, with blanks in front;
* **`scan_entries`** — a format with as many numbers reads them, whatever comes behind;
* `scan_number_none` — where there is no number.
-/
import Mathlib.Data.List.TakeWhile
import Mathlib.Algebra.Order.Ring.Int

namespace Scanf

def isSpace (c : UInt8) : Bool := c = 32 || (9 ≤ c && c ≤ 13)

def isDigit (c : UInt8) : Bool := 48 ≤ c && c ≤ 57

def digitsValue (digits : List UInt8) : ℕ := digits.foldl (fun n d => 10 * n + (d.toNat - 48)) 0

def plus : UInt8 := 43

def minus : UInt8 := 45

def splitSign (s : List UInt8) : Bool × List UInt8 :=
  match s with
  | [] => (false, [])
  | c :: s => if c = plus then (false, s) else if c = minus then (true, s) else (false, c :: s)

def signed (negative : Bool) (digits : List UInt8) : ℤ :=
  if negative then -(digitsValue digits : ℤ) else digitsValue digits

def number (s : List UInt8) : Option (ℤ × List UInt8) :=
  let r := splitSign s
  let digits := r.2.takeWhile isDigit
  if digits = [] then none else some (signed r.1 digits, r.2.dropWhile isDigit)

inductive Directive
  | space
  | char (c : UInt8)
  | number
  /-- at most so many bytes that are not white space -/
  | word (width : ℕ)
  /-- how much was read -/
  | count

inductive Value
  | number (v : ℤ)
  | word (s : List UInt8)
  | count (n : ℕ)

/-- What is stored, for a text of the length `total`. -/
def scan (total : ℕ) : List Directive → List UInt8 → List Value
  | [], _ => []
  | .space :: ds, s => scan total ds (s.dropWhile isSpace)
  | .char c :: ds, s =>
    match s with
    | [] => []
    | x :: s => if x = c then scan total ds s else []
  | .number :: ds, s =>
    match number (s.dropWhile isSpace) with
    | none => []
    | some (v, rest) => .number v :: scan total ds rest
  | .word width :: ds, s =>
    let s := s.dropWhile isSpace
    let w := (s.takeWhile (fun c => !isSpace c)).take width
    if w = [] then [] else .word w :: scan total ds (s.drop w.length)
  | .count :: ds, s => .count (total - s.length) :: scan total ds s

/-- `sscanf`; the text ends with a zero byte. -/
def sscanf (format : List Directive) (buf : List UInt8) : List Value :=
  let s := buf.takeWhile (· ≠ 0)
  scan s.length format s

def numbers (values : List Value) : List ℤ :=
  values.filterMap fun
    | .number v => some v
    | .word _ => none
    | .count _ => none

/-! ### Numbers as they are written -/

structure Numeral where
  sign : List UInt8
  digits : List UInt8
  sign_eq : sign = [] ∨ sign = [plus] ∨ sign = [minus]
  digits_ne : digits ≠ []
  digits_all : ∀ d ∈ digits, isDigit d = true

def Numeral.text (n : Numeral) : List UInt8 := n.sign ++ n.digits

def Numeral.value (n : Numeral) : ℤ := signed (n.sign = [minus]) n.digits

/-- A number with spaces or tabs in front of it. -/
structure Entry where
  blank : List UInt8
  numeral : Numeral
  blank_all : ∀ c ∈ blank, c = 32 ∨ c = 9

def Entry.text (f : Entry) : List UInt8 := f.blank ++ f.numeral.text

/-- There is a blank between any two numbers. -/
def Separated (entries : List Entry) : Prop := ∀ f ∈ entries.tail, f.blank ≠ []

theorem isSpace_blank {c : UInt8} (h : c = 32 ∨ c = 9) : isSpace c = true := by
  rcases h with rfl | rfl
  · decide
  · decide

theorem isDigit_blank {c : UInt8} (h : c = 32 ∨ c = 9) : isDigit c = false := by
  rcases h with rfl | rfl
  · decide
  · decide

theorem isDigit_sign {c : UInt8} (h : c = plus ∨ c = minus) : isDigit c = false := by
  rcases h with rfl | rfl
  · decide
  · decide

theorem isSpace_digit {c : UInt8} (h : isDigit c = true) : isSpace c = false := by
  rw [isDigit, Bool.and_eq_true, decide_eq_true_eq, decide_eq_true_eq, UInt8.le_iff_toNat_le,
    UInt8.le_iff_toNat_le] at h
  have hlow : 48 ≤ c.toNat := h.1
  rw [isSpace, Bool.or_eq_false_iff, Bool.and_eq_false_iff, decide_eq_false_iff_not,
    decide_eq_false_iff_not, decide_eq_false_iff_not]
  refine ⟨fun heq => ?_, .inr fun hle => ?_⟩
  · rw [heq] at hlow
    exact nomatch hlow
  · have hhigh : c.toNat ≤ 13 := UInt8.le_iff_toNat_le.mp hle
    omega

theorem Numeral.head (n : Numeral) (rest : List UInt8) :
    (n.text ++ rest).dropWhile isSpace = n.text ++ rest := by
  obtain ⟨sign, digits, hsign, hne, hall⟩ := n
  obtain ⟨d, ds, rfl⟩ := List.exists_cons_of_ne_nil hne
  have hd : isSpace d = false := isSpace_digit (hall d List.mem_cons_self)
  rcases hsign with rfl | rfl | rfl
  · exact List.dropWhile_cons_of_neg (by rw [hd]; exact Bool.false_ne_true)
  · exact List.dropWhile_cons_of_neg (by decide)
  · exact List.dropWhile_cons_of_neg (by decide)

theorem number_text (n : Numeral) {rest : List UInt8}
    (hrest : ∀ c ∈ rest.head?, isDigit c = false) :
    number (n.text ++ rest) = some (n.value, rest) := by
  obtain ⟨sign, digits, hsign, hne, hall⟩ := n
  have hstop : rest.takeWhile isDigit = [] ∧ rest.dropWhile isDigit = rest := by
    cases rest with
    | nil => exact ⟨rfl, rfl⟩
    | cons c rest =>
      have hc := hrest c rfl
      exact ⟨List.takeWhile_cons_of_neg (by rw [hc]; exact Bool.false_ne_true),
        List.dropWhile_cons_of_neg (by rw [hc]; exact Bool.false_ne_true)⟩
  have htake : (digits ++ rest).takeWhile isDigit = digits := by
    rw [List.takeWhile_append_of_pos hall, hstop.1, List.append_nil]
  have hdrop : (digits ++ rest).dropWhile isDigit = rest := by
    rw [List.dropWhile_append_of_pos hall, hstop.2]
  have hsplit : splitSign (sign ++ digits ++ rest) = (decide (sign = [minus]), digits ++ rest) := by
    rcases hsign with rfl | rfl | rfl
    · obtain ⟨d, ds, rfl⟩ := List.exists_cons_of_ne_nil hne
      have hd := hall d List.mem_cons_self
      have hplus : d ≠ plus := fun heq => by
        rw [isDigit_sign (.inl heq)] at hd
        exact Bool.false_ne_true hd
      have hminus : d ≠ minus := fun heq => by
        rw [isDigit_sign (.inr heq)] at hd
        exact Bool.false_ne_true hd
      rw [List.nil_append, List.cons_append, splitSign, if_neg hplus, if_neg hminus]
      rfl
    · rfl
    · rfl
  rw [number, Numeral.text, hsplit]
  dsimp only
  rw [htake, hdrop, if_neg hne]
  rfl

theorem scan_number_none (total : ℕ) (ds : List Directive) {s : List UInt8}
    (h : ∀ c ∈ (s.dropWhile isSpace).head?, isDigit c = false ∧ c ≠ plus ∧ c ≠ minus) :
    scan total (.number :: ds) s = [] := by
  have hnone : number (s.dropWhile isSpace) = none := by
    cases hs : s.dropWhile isSpace with
    | nil => rfl
    | cons c s' =>
      rw [hs] at h
      obtain ⟨hdigit, hplus, hminus⟩ := h c rfl
      rw [number, splitSign, if_neg hplus, if_neg hminus]
      dsimp only
      rw [if_pos (List.takeWhile_cons_of_neg (by rw [hdigit]; exact Bool.false_ne_true))]
  rw [scan, hnone]

theorem dropWhile_blank {blank : List UInt8} (h : ∀ c ∈ blank, c = 32 ∨ c = 9) (rest : List UInt8) :
    (blank ++ rest).dropWhile isSpace = rest.dropWhile isSpace :=
  List.dropWhile_append_of_pos fun c hc => isSpace_blank (h c hc)

theorem scan_entry (total : ℕ) (ds : List Directive) (f : Entry) {rest : List UInt8}
    (hrest : ∀ c ∈ rest.head?, isDigit c = false) :
    scan total (.space :: .number :: ds) (f.text ++ rest) =
      .number f.numeral.value :: scan total ds rest := by
  rw [scan, scan, Entry.text, List.append_assoc, dropWhile_blank f.blank_all, f.numeral.head,
    f.numeral.head, number_text f.numeral hrest]

/-- **The numbers are read**, whatever comes behind them. -/
theorem scan_entries (total : ℕ) (ds : List Directive) {entries : List Entry}
    (hsep : Separated entries) {rest : List UInt8} (hrest : ∀ c ∈ rest.head?, isDigit c = false) :
    scan total ((entries.flatMap fun _ => [.space, .number]) ++ ds)
      (entries.flatMap Entry.text ++ rest) =
      (entries.map fun f => .number f.numeral.value) ++ scan total ds rest := by
  induction entries with
  | nil => rfl
  | cons f entries ih =>
    have hnext : ∀ c ∈ (entries.flatMap Entry.text ++ rest).head?, isDigit c = false := by
      cases entries with
      | nil => exact hrest
      | cons g entries =>
        obtain ⟨b, bs, hb⟩ := List.exists_cons_of_ne_nil (hsep g List.mem_cons_self)
        intro c hc
        rw [List.flatMap_cons, Entry.text, hb] at hc
        have hcb : b = c := Option.some.inj hc
        rw [← hcb]
        exact isDigit_blank (g.blank_all b (hb ▸ List.mem_cons_self))
    have hsep' : Separated entries := fun g hg => hsep g (List.mem_of_mem_tail hg)
    rw [List.flatMap_cons, List.flatMap_cons, List.append_assoc, List.append_assoc, List.map_cons,
      List.cons_append, List.cons_append, List.cons_append, List.nil_append,
        scan_entry total _ f hnext,
      ih hsep']

theorem scan_char (total : ℕ) (ds : List Directive) (c : UInt8) (s : List UInt8) :
    scan total (.char c :: ds) (c :: s) = scan total ds s := by
  rw [scan]
  exact if_pos rfl

end Scanf
