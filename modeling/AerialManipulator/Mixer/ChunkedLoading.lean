/-
Mixers whose text comes in pieces.

A text that is cut off lacks the end of its last line, and whoever reads this line then refuses the
mixer without using anything up.  With the rest of the line the text is read again from its first
byte, so that the mixers are those of the whole text.

* `Definition` — how mixers are written;
* `Definition.read`, `Definition.cut_off` — a mixer is read whatever comes behind, a part is not;
* **`chunkedLoading`** — the same mixers for every partition of the text.
-/
import AerialManipulator.Mixer.MixerGroup
import AerialManipulator.Px4io.MixerText

open Scanf

namespace MixerGroup

/-! ### How mixers are written -/

/-- Numbers behind a tag, with a blank between any two of them. -/
structure Line where
  entries : List Entry
  trailing : List UInt8
  separated : Separated entries
  trailing_all : ∀ c ∈ trailing, c = 32 ∨ c = 9

def Line.body (l : Line) : List UInt8 := l.entries.flatMap Entry.text ++ l.trailing

def Line.values (l : Line) : List ℤ := l.entries.map fun e => e.numeral.value

def lineOf (tag : UInt8) (body : List UInt8) : List UInt8 :=
  tag :: ascii ':' :: (body ++ [ascii '\n'])

def Line.text (tag : UInt8) (l : Line) : List UInt8 := lineOf tag l.body

/-- `Z:` -/
structure NullText where
  blank : List UInt8
  blank_all : ∀ c ∈ blank, c = 32 ∨ c = 9

/-- `M:` with the number of controls, `O:` if there is one, and an `S:` for each control. -/
structure SimpleText where
  count : Line
  output : Option Line
  controls : List Line
  count_values : count.values = [(controls.length : ℤ)]
  fits : controls.length < 2 ^ 32
  controls_ne : controls ≠ []
  output_size : ∀ l ∈ output, l.entries.length = 5 ∨ l.entries.length = 6
  control_size : ∀ l ∈ controls, l.entries.length = 7

/-- `R:` with the name of a geometry, and anything behind it. -/
structure MultirotorText (keys : List (List UInt8)) where
  blank : List UInt8
  geomname : List UInt8
  trailing : List UInt8
  blank_all : ∀ c ∈ blank, c = 32 ∨ c = 9
  geomname_ne : geomname ≠ []
  geomname_all : ∀ c ∈ geomname, isSpace c = false ∧ c ≠ 0
  geomname_length : geomname.length ≤ 15
  known : geomname ∈ keys
  trailing_head : ∀ c ∈ trailing.head?, isSpace c = true
  trailing_all : ∀ c ∈ trailing, c ≠ 0 ∧ c ≠ ascii '\n' ∧ c ≠ ascii '\r'

inductive Definition (keys : List (List UInt8))
  | null (z : NullText)
  | simple (t : SimpleText)
  | multirotor (t : MultirotorText keys)

def SimpleText.outputText (t : SimpleText) : List UInt8 :=
  match t.output with
  | some l => l.text (ascii 'O')
  | none => []

def controlsText (controls : List Line) : List UInt8 := controls.flatMap (Line.text (ascii 'S'))

def Definition.text {keys : List (List UInt8)} : Definition keys → List UInt8
  | .null z => lineOf (ascii 'Z') z.blank
  | .simple t => t.count.text (ascii 'M') ++ (t.outputText ++ controlsText t.controls)
  | .multirotor t => lineOf (ascii 'R') (t.blank ++ (t.geomname ++ t.trailing))

def textOf {keys : List (List UInt8)} (defs : List (Definition keys)) : List UInt8 :=
  defs.flatMap Definition.text

section
variable {K : Type*} [Field K]

/-- The scaler that begins with the `i`-th number. -/
def Line.scaler (l : Line) (i : ℕ) : Scaler K where
  negative_scale := scaled (l.values.getD i 0)
  positive_scale := scaled (l.values.getD (i + 1) 0)
  offset := scaled (l.values.getD (i + 2) 0)
  min_output := scaled (l.values.getD (i + 3) 0)
  max_output := scaled (l.values.getD (i + 4) 0)

def Line.control (l : Line) : Control K where
  control_group := UInt8.ofNat (toUnsigned (l.values.getD 0 0))
  control_index := UInt8.ofNat (toUnsigned (l.values.getD 1 0))
  scaler := l.scaler 2

def SimpleText.outputScaler (t : SimpleText) : Scaler K × K :=
  match t.output with
  | some l => (l.scaler 0, scaled (l.values.getD 5 0))
  | none => (⟨1, 1, 0, -1, 1⟩, 0)

def Definition.mixer {keys : List (List UInt8)} : Definition keys → Mixer K
  | .null _ => .null
  | .simple t => .simple ⟨UInt8.ofNat t.controls.length, (t.outputScaler (K := K)).1,
      (t.outputScaler (K := K)).2, t.controls.map Line.control⟩
  | .multirotor t => .multirotor (keys.idxOf t.geomname)

end

/-! ### Ends of lines -/

/-- There is no end of a line. -/
def Broken (buf : List UInt8) : Prop := ∀ c ∈ buf, c ≠ ascii '\n' ∧ c ≠ ascii '\r'

/-- There is no zero byte, and no carriage return. -/
def Clean (buf : List UInt8) : Prop := ∀ c ∈ buf, c ≠ 0 ∧ c ≠ ascii '\r'

theorem clean_append {a b : List UInt8} : Clean (a ++ b) ↔ Clean a ∧ Clean b :=
  List.forall_mem_append

theorem Broken.of_suffix {a b : List UInt8} (h : Broken b) (hab : a <:+ b) : Broken a :=
  fun c hc => h c (hab.subset hc)

theorem Broken.of_prefix {a b : List UInt8} (h : Broken b) (hab : a <+: b) : Broken a :=
  fun c hc => h c (hab.subset hc)

theorem Broken.behind {buf : List UInt8} (h : Broken buf) : skipline buf = none := by
  have hcr : ascii '\r' ∉ buf := fun hmem => (h _ hmem).2 rfl
  have hlf : ascii '\n' ∉ buf := fun hmem => (h _ hmem).1 rfl
  rw [skipline, MixerGroup.behind, if_neg hcr]
  exact if_neg hlf

theorem Broken.stringWellFormed {buf : List UInt8} (h : Broken buf) :
    stringWellFormed buf = false := by
  rw [MixerGroup.stringWellFormed, List.any_eq_false]
  intro c hc
  rw [Bool.or_eq_true, decide_eq_true_eq, decide_eq_true_eq, not_or]
  exact h c hc

theorem skipline_body {body rest : List UInt8} (hbody : Broken body) (hrest : Clean rest) :
    skipline (body ++ ascii '\n' :: rest) = some rest := by
  have hcr : ascii '\r' ∉ body ++ ascii '\n' :: rest := by
    intro hmem
    rcases List.mem_append.mp hmem with hmem | hmem
    · exact (hbody _ hmem).2 rfl
    · rcases List.mem_cons.mp hmem with heq | hmem
      · exact nomatch heq
      · exact (hrest _ hmem).2 rfl
  have hlf : ascii '\n' ∈ body ++ ascii '\n' :: rest := by
    exact List.mem_append_right _ List.mem_cons_self
  have hdrop : (body ++ ascii '\n' :: rest).dropWhile (· ≠ ascii '\n') = ascii '\n' :: rest := by
    rw [List.dropWhile_append_of_pos fun c hc => decide_eq_true (hbody c hc).1,
      List.dropWhile_cons_of_neg (by decide)]
  rw [skipline, MixerGroup.behind, if_neg hcr]
  dsimp only
  rw [MixerGroup.behind, if_pos hlf, hdrop, List.tail_cons]

theorem stringWellFormed_body (body rest : List UInt8) :
    stringWellFormed (body ++ ascii '\n' :: rest) = true := by
  rw [stringWellFormed, List.any_eq_true]
  exact ⟨ascii '\n', List.mem_append_right _ List.mem_cons_self, by decide⟩

theorem lineOf_append (tag : UInt8) (body text : List UInt8) :
    lineOf tag body ++ text = (tag :: ascii ':' :: body) ++ ascii '\n' :: text := by
  rw [lineOf, List.cons_append, List.cons_append, List.append_assoc, List.singleton_append,
    List.cons_append, List.cons_append]

theorem Broken.line {tag : UInt8} {body : List UInt8} (h : Broken (tag :: body)) :
    Broken (tag :: ascii ':' :: body) := by
  intro c hc
  rcases List.mem_cons.mp hc with rfl | hmem
  · exact h c List.mem_cons_self
  · rcases List.mem_cons.mp hmem with rfl | hmem
    · exact ⟨by decide, by decide⟩
    · exact h c (List.mem_cons_of_mem tag hmem)

theorem prefix_line {tag : UInt8} {body text q : List UInt8} (hbody : Broken (tag :: body))
    (h : q <+: lineOf tag body ++ text) : Broken q ∨ ∃ q', q = lineOf tag body ++ q' ∧
      q' <+: text := by
  rw [lineOf_append] at h
  rcases List.prefix_or_prefix_of_prefix h (List.prefix_append _ _) with hq | hwhole
  · exact .inl (hbody.line.of_prefix hq)
  · obtain ⟨r, rfl⟩ := hwhole
    rw [List.prefix_append_right_inj] at h
    cases r with
    | nil =>
      rw [List.append_nil]
      exact .inl hbody.line
    | cons c r =>
      obtain ⟨rfl, hr⟩ := List.cons_prefix_cons.mp h
      exact .inr ⟨r, (lineOf_append tag body r).symm, hr⟩

/-! ### Lines of numbers -/

theorem blank_clean {c : UInt8} (h : c = 32 ∨ c = 9) : c ≠ 0 ∧ c ≠ ascii '\n' ∧ c ≠ ascii '\r' := by
  rcases h with rfl | rfl
  · exact ⟨by decide, by decide, by decide⟩
  · exact ⟨by decide, by decide, by decide⟩

theorem digit_clean {c : UInt8} (h : isDigit c = true) :
    c ≠ 0 ∧ c ≠ ascii '\n' ∧ c ≠ ascii '\r' := by
  refine ⟨fun heq => ?_, fun heq => ?_, fun heq => ?_⟩
  · rw [heq] at h
    exact nomatch h
  · rw [heq] at h
    exact nomatch h
  · rw [heq] at h
    exact nomatch h

theorem numeral_clean (n : Numeral) {c : UInt8} (h : c ∈ n.text) :
    c ≠ 0 ∧ c ≠ ascii '\n' ∧ c ≠ ascii '\r' := by
  rcases List.mem_append.mp h with hsign | hdigit
  · rcases n.sign_eq with heq | heq | heq
    · rw [heq] at hsign
      exact nomatch hsign
    · rw [heq] at hsign
      rw [List.mem_singleton.mp hsign]
      exact ⟨by decide, by decide, by decide⟩
    · rw [heq] at hsign
      rw [List.mem_singleton.mp hsign]
      exact ⟨by decide, by decide, by decide⟩
  · exact digit_clean (n.digits_all c hdigit)

theorem Line.body_clean (l : Line) {c : UInt8} (h : c ∈ l.body) :
    c ≠ 0 ∧ c ≠ ascii '\n' ∧ c ≠ ascii '\r' := by
  rcases List.mem_append.mp h with hentries | htrailing
  · obtain ⟨e, -, he⟩ := List.mem_flatMap.mp hentries
    rcases List.mem_append.mp he with hblank | hnumeral
    · exact blank_clean (e.blank_all c hblank)
    · exact numeral_clean e.numeral hnumeral
  · exact blank_clean (l.trailing_all c htrailing)

theorem broken_cons {tag : UInt8} {body : List UInt8} (htag : tag ≠ ascii '\n' ∧ tag ≠ ascii '\r')
    (hbody : Broken body) : Broken (tag :: body) :=
  List.forall_mem_cons.mpr ⟨htag, hbody⟩

theorem Line.body_broken (l : Line) : Broken l.body := fun _ hc => (l.body_clean hc).2

theorem lineOf_clean {tag : UInt8} {body : List UInt8} (htag : tag ≠ 0 ∧ tag ≠ ascii '\r')
    (hbody : Clean body) : Clean (lineOf tag body) := by
  refine List.forall_mem_cons.mpr ⟨htag, List.forall_mem_cons.mpr ⟨⟨by decide, by decide⟩, ?_⟩⟩
  refine List.forall_mem_append.mpr ⟨hbody, fun c hc => ?_⟩
  rw [List.mem_singleton.mp hc]
  exact ⟨by decide, by decide⟩

theorem Line.text_clean (l : Line) {tag : UInt8} (htag : tag ≠ 0 ∧ tag ≠ ascii '\r') :
    Clean (l.text tag) :=
  lineOf_clean htag fun _ hc => ⟨(l.body_clean hc).1, (l.body_clean hc).2.2⟩

theorem skipline_line {tag : UInt8} {body rest : List UInt8} (hbody : Broken (tag :: body))
    (hrest : Clean rest) : skipline (lineOf tag body ++ rest) = some rest := by
  rw [lineOf_append]
  exact skipline_body hbody.line hrest

theorem findtag_broken {tag : UInt8} {q : List UInt8} (h : Broken q) :
    ∀ buf, findtag tag q = some buf → Broken buf :=
  fun _ htag => h.of_suffix (findtag_suffix htag)

theorem parseLine_broken {α : Type*} {tag : UInt8} {size n : ℕ} {ds : List Directive}
    {value : List ℤ → Option α} {q : List UInt8} (h : Broken q) :
    parseLine tag size n ds value q = none := by
  rw [parseLine]
  cases htag : findtag tag q with
  | none => rfl
  | some buf =>
    have hskip : skipline buf = none := (findtag_broken h buf htag).behind
    dsimp only
    split_ifs
    · rfl
    · cases hvalue : value (numbers (sscanf (tagFormat tag n ds) buf)) with
      | none => rfl
      | some a =>
        dsimp only
        rw [hskip]

theorem tagFormat_succ (tag : UInt8) (n : ℕ) (ds : List Directive) :
    tagFormat tag (n + 1) ds = tagFormat tag n (.space :: .number :: ds) := by
  rw [tagFormat, tagFormat, List.replicate_succ', List.flatten_append, List.flatten_singleton,
    List.append_assoc]
  rfl

theorem replicate_flatten (entries : List Entry) (pattern : List Directive) :
    (List.replicate entries.length pattern).flatten = entries.flatMap fun _ => pattern := by
  induction entries with
  | nil => rfl
  | cons e entries ih =>
    rw [List.length_cons, List.replicate_succ, List.flatten_cons, ih, List.flatMap_cons]

theorem numbers_append (l : Line) (values : List Value) :
    numbers ((l.entries.map fun e => .number e.numeral.value) ++ values) = l.values ++
      numbers values := by
  rw [numbers, List.filterMap_append, List.filterMap_map, Line.values]
  refine congrArg (· ++ numbers values) ?_
  exact congrFun (List.filterMap_eq_map (f := fun e : Entry => e.numeral.value)) l.entries

theorem numbers_line {tag : UInt8} (htag : tag ≠ 0 ∧ tag ≠ ascii '\r') (l : Line)
    (ds : List Directive) {rest : List UInt8} (hrest : Clean rest) : ∃ total,
      numbers (sscanf (tagFormat tag l.entries.length ds) (l.text tag ++ rest)) =
        l.values ++ numbers (scan total ds (l.trailing ++ ascii '\n' :: rest)) := by
  have hclean : Clean (l.text tag ++ rest) := clean_append.mpr ⟨l.text_clean htag, hrest⟩
  have hwhole : (l.text tag ++ rest).takeWhile (· ≠ 0) = l.text tag ++ rest :=
    List.takeWhile_eq_self_iff.mpr fun c hc => decide_eq_true (hclean c hc).1
  have hhead : ∀ c ∈ (l.trailing ++ ascii '\n' :: rest).head?, isDigit c = false := by
    intro c hc
    cases htrailing : l.trailing with
    | nil =>
      rw [htrailing] at hc
      rw [← Option.some.inj hc]
      decide
    | cons b bs =>
      rw [htrailing] at hc
      rw [← Option.some.inj hc]
      exact isDigit_blank (l.trailing_all b (htrailing ▸ List.mem_cons_self))
  refine ⟨(l.text tag ++ rest).length, ?_⟩
  rw [sscanf, hwhole]
  rw [Line.text, lineOf_append, tagFormat, replicate_flatten]
  rw [List.cons_append, scan_char, List.cons_append, scan_char, Line.body, List.append_assoc,
    scan_entries _ ds l.separated hhead, numbers_append]

theorem Line.values_length (l : Line) : l.values.length = l.entries.length := List.length_map _

theorem text_length (e : Entry) : 1 ≤ e.text.length := by
  rw [Entry.text, Numeral.text, List.length_append, List.length_append]
  have := List.length_pos_iff.mpr e.numeral.digits_ne
  omega

theorem entries_length {entries : List Entry} (h : ∀ e ∈ entries, e.blank ≠ []) :
    2 * entries.length ≤ (entries.flatMap Entry.text).length := by
  induction entries with
  | nil => exact Nat.zero_le _
  | cons e entries ih =>
    have hblank := List.length_pos_iff.mpr (h e List.mem_cons_self)
    have hdigits := List.length_pos_iff.mpr e.numeral.digits_ne
    have hrest := ih fun e he => h e (List.mem_cons_of_mem _ he)
    rw [List.flatMap_cons, List.length_append, List.length_cons, Entry.text, Numeral.text,
      List.length_append, List.length_append]
    omega

theorem Line.text_length (l : Line) (tag : UInt8) (rest : List UInt8) :
    2 * l.entries.length + 2 ≤ (l.text tag ++ rest).length := by
  have hbody : 2 * l.entries.length ≤ (l.entries.flatMap Entry.text).length + 1 := by
    cases hentries : l.entries with
    | nil => exact Nat.zero_le _
    | cons e entries =>
      have hsep : ∀ e ∈ entries, e.blank ≠ [] := by
        intro g hg
        refine l.separated g ?_
        rw [hentries]
        exact hg
      have he := MixerGroup.text_length e
      have hrest := entries_length hsep
      rw [List.flatMap_cons, List.length_append, List.length_cons]
      omega
  rw [Line.text, lineOf, Line.body, List.length_append, List.length_cons, List.length_cons,
    List.length_append, List.length_append, List.length_singleton]
  omega

theorem eq_getD {values : List ℤ} {n : ℕ} (h : values.length = n) :
    values = (List.range n).map fun i => values.getD i 0 := by
  refine List.ext_getElem (by rw [List.length_map, List.length_range, h]) fun i hi _ => ?_
  rw [List.getElem_map, List.getElem_range, ← List.getElem_eq_getD 0]

theorem parseLine_line {α : Type*} {tag : UInt8}
    (htag : tag ≠ 0 ∧ tag ≠ ascii '\n' ∧ tag ≠ ascii '\r')
    {size n : ℕ} {ds : List Directive} {value : List ℤ → Option α} {a : α} (l : Line)
    {rest : List UInt8} (hrest : Clean rest) (hsize : size ≤ 2 * l.entries.length + 2)
    (hvalue : value (numbers (sscanf (tagFormat tag n ds) (l.text tag ++ rest))) = some a) :
    parseLine tag size n ds value (l.text tag ++ rest) = some (a, rest) := by
  have hfind : findtag tag (l.text tag ++ rest) = some (l.text tag ++ rest) := by
    rw [Line.text, lineOf_append, List.cons_append, List.cons_append, findtag]
    exact if_pos ⟨rfl, rfl⟩
  have hlength : ¬ (l.text tag ++ rest).length < size :=
    not_lt.mpr (hsize.trans (l.text_length tag rest))
  have hskip : skipline (l.text tag ++ rest) = some rest :=
    skipline_line (broken_cons htag.2 l.body_broken) hrest
  rw [parseLine, hfind]
  dsimp only
  rw [if_neg hlength, hvalue]
  dsimp only
  rw [hskip]

section
variable {K : Type*} [Field K]

theorem controlValues_line {l : Line} (h : l.entries.length = 7) :
    controlValues (K := K) l.values = some l.control := by
  rw [eq_getD (l.values_length.trans h)]
  rfl

theorem parse_control_line {l : Line} (h : l.entries.length = 7) {rest : List UInt8}
    (hrest : Clean rest) :
    parseControlScaler (K := K) (l.text (ascii 'S') ++ rest) = some (l.control, rest) := by
  have htag : ascii 'S' ≠ 0 ∧ ascii 'S' ≠ ascii '\n' ∧ ascii 'S' ≠ ascii '\r' :=
    ⟨by decide, by decide, by decide⟩
  refine parseLine_line htag l hrest (by rw [h]) ?_
  obtain ⟨total, hnumbers⟩ := numbers_line ⟨htag.1, htag.2.2⟩ l [] hrest
  rw [h, scan] at hnumbers
  rw [hnumbers]
  exact (congrArg controlValues (List.append_nil _)).trans (controlValues_line h)

theorem outputValues_line {l : Line} (h : l.entries.length = 5 ∨ l.entries.length = 6) :
    outputValues (K := K) l.values = some (l.scaler 0, scaled (l.values.getD 5 0)) := by
  rcases h with h | h
  · have hnone : l.values.getD 5 0 = 0 := by
      rw [List.getD_eq_getElem?_getD,
        List.getElem?_eq_none (l.values_length.trans_le (le_of_eq h)), Option.getD_none]
    rw [hnone, eq_getD (l.values_length.trans h), Line.scaler, eq_getD (l.values_length.trans h)]
    rfl
  · rw [eq_getD (l.values_length.trans h)]
    rfl

theorem parse_output_line {l : Line} (h : l.entries.length = 5 ∨ l.entries.length = 6)
    {rest : List UInt8} (hrest : Clean rest) (hhead : ∀ c ∈ rest.head?, c = ascii 'S') :
    parseOutputScaler (K := K) (l.text (ascii 'O') ++ rest) =
      some ((l.scaler 0, scaled (l.values.getD 5 0)), rest) := by
  have htag : ascii 'O' ≠ 0 ∧ ascii 'O' ≠ ascii '\n' ∧ ascii 'O' ≠ ascii '\r' :=
    ⟨by decide, by decide, by decide⟩
  refine parseLine_line htag l hrest (by omega) ?_
  suffices hnumbers : numbers (sscanf (tagFormat (ascii 'O') 6 [.space, .count])
      (l.text (ascii 'O') ++ rest)) = l.values by
    rw [hnumbers, outputValues_line h]
  rcases h with h | h
  · obtain ⟨total, hnumbers⟩ := numbers_line ⟨htag.1, htag.2.2⟩ l
      [.space, .number, .space, .count] hrest
    have hdrop : (l.trailing ++ ascii '\n' :: rest).dropWhile isSpace = rest := by
      rw [dropWhile_blank l.trailing_all, List.dropWhile_cons_of_pos (by decide)]
      cases rest with
      | nil => rfl
      | cons c rest =>
        rw [hhead c rfl]
        exact List.dropWhile_cons_of_neg (by decide)
    have hnone : scan total [.space, .number, .space, .count] (l.trailing ++ ascii '\n' :: rest) =
        [] := by
      rw [scan, hdrop]
      refine scan_number_none total _ fun c hc => ?_
      cases rest with
      | nil => exact absurd hc.symm (Option.some_ne_none c)
      | cons x rest =>
        rw [hhead x rfl, List.dropWhile_cons_of_neg (by decide)] at hc
        rw [← Option.some.inj hc]
        exact ⟨by decide, by decide, by decide⟩
    rw [hnone, h] at hnumbers
    rw [tagFormat_succ, hnumbers]
    exact List.append_nil _
  · obtain ⟨total, hnumbers⟩ := numbers_line ⟨htag.1, htag.2.2⟩ l [.space, .count] hrest
    rw [h, scan, scan, scan] at hnumbers
    rw [hnumbers]
    exact List.append_nil _

/-! ### Simple mixers -/

theorem controlsText_cons (l : Line) (controls : List Line) :
    controlsText (l :: controls) = l.text (ascii 'S') ++ controlsText controls := List.flatMap_cons

theorem controlsText_clean (controls : List Line) : Clean (controlsText controls) := by
  intro c hc
  obtain ⟨l, -, hl⟩ := List.mem_flatMap.mp hc
  exact l.text_clean ⟨by decide, by decide⟩ c hl

theorem controlsText_head {controls : List Line} {q : List UInt8}
    (h : q <+: controlsText controls) :
    ∀ c ∈ q.head?, c = ascii 'S' := by
  intro c hc
  cases controls with
  | nil =>
    rw [List.prefix_nil.mp h] at hc
    exact nomatch hc
  | cons l controls =>
    cases q with
    | nil => exact nomatch hc
    | cons x q =>
      rw [← Option.some.inj hc]
      exact (List.cons_prefix_cons.mp h).1

theorem times_controls {controls : List Line} (h : ∀ l ∈ controls, l.entries.length = 7)
    {rest : List UInt8} (hrest : Clean rest) :
    times (parseControlScaler (K := K)) controls.length (controlsText controls ++ rest) =
      some (controls.map Line.control, rest) := by
  induction controls with
  | nil => rfl
  | cons l controls ih =>
    have hclean : Clean (controlsText controls ++ rest) :=
      clean_append.mpr ⟨controlsText_clean controls, hrest⟩
    rw [controlsText_cons, List.append_assoc, List.length_cons, times,
      parse_control_line (h l List.mem_cons_self) hclean]
    dsimp only
    rw [ih fun g hg => h g (List.mem_cons_of_mem l hg)]
    rfl

theorem times_broken {n : ℕ} {q : List UInt8} (h : Broken q) :
    times (parseControlScaler (K := K)) (n + 1) q = none := by
  rw [times, parseControlScaler, parseLine_broken h]

theorem times_cut {controls : List Line} (h : ∀ l ∈ controls, l.entries.length = 7) {q : List UInt8}
    (hq : q <+: controlsText controls) (hne : q ≠ controlsText controls) :
    times (parseControlScaler (K := K)) controls.length q = none := by
  induction controls generalizing q with
  | nil => exact absurd (List.prefix_nil.mp hq) hne
  | cons l controls ih =>
    have hbroken : Broken (ascii 'S' :: l.body) := broken_cons ⟨by decide, by decide⟩ l.body_broken
    rcases prefix_line hbroken hq with hcut | ⟨q', rfl, hq'⟩
    · exact times_broken hcut
    · have hne' : q' ≠ controlsText controls := fun heq => hne (heq ▸ rfl)
      have hclean : Clean q' := fun c hc => controlsText_clean controls c (hq'.subset hc)
      rw [List.length_cons, times, ← Line.text, parse_control_line (h l List.mem_cons_self) hclean]
      dsimp only
      rw [ih (fun g hg => h g (List.mem_cons_of_mem l hg)) hq' hne']

theorem outputText_clean (t : SimpleText) : Clean t.outputText := by
  rw [SimpleText.outputText]
  cases t.output with
  | none => exact fun c hc => nomatch hc
  | some l => exact l.text_clean ⟨by decide, by decide⟩

theorem outputScaler_text (t : SimpleText) {q : List UInt8} (hclean : Clean q)
    (hhead : ∀ c ∈ q.head?, c = ascii 'S')
    (htag : t.output = none → findnexttag q = some (ascii 'S')) :
    outputScaler (K := K) (t.outputText ++ q) = some (t.outputScaler, q) := by
  rw [SimpleText.outputText, SimpleText.outputScaler]
  cases houtput : t.output with
  | none =>
    rw [outputScaler]
    exact if_pos (htag houtput)
  | some l =>
    have hO : findnexttag (l.text (ascii 'O') ++ q) = some (ascii 'O') := by
      rw [Line.text, lineOf_append, List.cons_append, List.cons_append, findnexttag]
      exact if_pos ⟨by decide, rfl⟩
    dsimp only
    rw [outputScaler, hO, if_neg (by decide)]
    exact parse_output_line (t.output_size l houtput) hclean hhead

theorem findnexttag_controls {controls : List Line} (hne : controls ≠ []) (rest : List UInt8) :
    findnexttag (controlsText controls ++ rest) = some (ascii 'S') := by
  obtain ⟨l, controls, rfl⟩ := List.exists_cons_of_ne_nil hne
  rw [controlsText_cons, List.append_assoc, Line.text, lineOf_append, List.cons_append,
    List.cons_append, findnexttag]
  exact if_pos ⟨by decide, rfl⟩

theorem count_numbers (t : SimpleText) {rest : List UInt8} (hrest : Clean rest) :
    numbers (sscanf (tagFormat (ascii 'M') 1 [.count]) (t.count.text (ascii 'M') ++ rest)) =
      [(t.controls.length : ℤ)] := by
  have htag : ascii 'M' ≠ 0 ∧ ascii 'M' ≠ ascii '\r' := ⟨by decide, by decide⟩
  obtain ⟨total, hnumbers⟩ := numbers_line htag t.count [.count] hrest
  have hlength : t.count.entries.length = 1 := by
    rw [← t.count.values_length, t.count_values, List.length_singleton]
  rw [hlength, t.count_values, scan, scan] at hnumbers
  rw [hnumbers]
  exact List.append_nil _

theorem simple_behind (t : SimpleText) {q : List UInt8} (hq : Clean q) :
    simpleFromText (K := K) (t.count.text (ascii 'M') ++ q) =
      (outputScaler q).bind fun output =>
        (times parseControlScaler t.controls.length output.2).map fun controls =>
          (.simple ⟨UInt8.ofNat t.controls.length, output.1.1, output.1.2, controls.1⟩,
            controls.2) := by
  have hM : Broken (ascii 'M' :: t.count.body) :=
    broken_cons ⟨by decide, by decide⟩ t.count.body_broken
  have hformed : stringWellFormed (t.count.text (ascii 'M') ++ q) = true := by
    rw [Line.text, lineOf_append]
    exact stringWellFormed_body _ _
  have hskip : skipline (t.count.text (ascii 'M') ++ q) = some q := skipline_line hM hq
  have hcount : toUnsigned (t.controls.length : ℤ) = t.controls.length := by
    have hmod : (t.controls.length : ℤ) % 2 ^ 32 = t.controls.length :=
      Int.emod_eq_of_lt (Int.natCast_nonneg _) (by exact_mod_cast t.fits)
    rw [toUnsigned, hmod, Int.toNat_natCast]
  have hpos : t.controls.length ≠ 0 := fun hzero => t.controls_ne (List.length_eq_zero_iff.mp hzero)
  rw [simpleFromText, if_pos hformed, count_numbers t hq]
  dsimp only
  rw [hcount, if_neg hpos, hskip]
  dsimp only
  cases outputScaler (K := K) q with
  | none => rfl
  | some output =>
    obtain ⟨output, buf⟩ := output
    dsimp only [Option.bind_some]
    cases times (parseControlScaler (K := K)) t.controls.length buf with
    | none => rfl
    | some controls => rfl

theorem simple_read (t : SimpleText) {rest : List UInt8} (hrest : Clean rest) :
    simpleFromText (K := K) (t.count.text (ascii 'M') ++
      (t.outputText ++ controlsText t.controls) ++ rest) =
      some (.simple ⟨UInt8.ofNat t.controls.length, (t.outputScaler (K := K)).1,
        (t.outputScaler (K := K)).2, t.controls.map Line.control⟩, rest) := by
  have hcontrols : Clean (controlsText t.controls ++ rest) :=
    clean_append.mpr ⟨controlsText_clean _, hrest⟩
  have hhead : ∀ c ∈ (controlsText t.controls ++ rest).head?, c = ascii 'S' := by
    intro c hc
    obtain ⟨l, controls, heq⟩ := List.exists_cons_of_ne_nil t.controls_ne
    rw [heq, controlsText_cons] at hc
    exact (Option.some.inj hc).symm
  rw [List.append_assoc, List.append_assoc,
    simple_behind t (clean_append.mpr ⟨outputText_clean t, hcontrols⟩),
    outputScaler_text t hcontrols hhead fun _ => findnexttag_controls t.controls_ne rest,
    Option.bind_some, times_controls t.control_size hrest, Option.map_some]

theorem outputScaler_broken {q buf : List UInt8} {v : Scaler K × K} (hq : Broken q)
    (h : outputScaler q = some (v, buf)) : Broken buf := hq.of_suffix (outputScaler_suffix h)

theorem simple_cut (t : SimpleText) {q : List UInt8}
    (hq : q <+: t.count.text (ascii 'M') ++ (t.outputText ++ controlsText t.controls))
    (hne : q ≠ t.count.text (ascii 'M') ++ (t.outputText ++ controlsText t.controls)) :
    simpleFromText (K := K) q = none := by
  have hM : Broken (ascii 'M' :: t.count.body) :=
    broken_cons ⟨by decide, by decide⟩ t.count.body_broken
  have hwhole : Clean (t.outputText ++ controlsText t.controls) :=
    clean_append.mpr ⟨outputText_clean t, controlsText_clean _⟩
  rcases prefix_line hM hq with hcut | ⟨q', rfl, hq'⟩
  · rw [simpleFromText, if_neg (by rw [hcut.stringWellFormed]; exact Bool.false_ne_true)]
  · have hne' : q' ≠ t.outputText ++ controlsText t.controls := fun heq => hne (heq ▸ rfl)
    rw [← Line.text, simple_behind t fun c hc => hwhole c (hq'.subset hc)]
    -- nothing is left for the controls, or not all of it
    suffices hnone : ∀ v buf, outputScaler (K := K) q' = some (v, buf) →
        times (parseControlScaler (K := K)) t.controls.length buf = none by
      cases houtput : outputScaler (K := K) q' with
      | none => rfl
      | some output =>
        obtain ⟨v, buf⟩ := output
        rw [Option.bind_some, hnone v buf houtput, Option.map_none]
    intro v buf houtput
    obtain ⟨l, controls, hcontrols⟩ := List.exists_cons_of_ne_nil t.controls_ne
    have hlength : t.controls.length = controls.length + 1 := by rw [hcontrols, List.length_cons]
    have hbroken : Broken q' → times (parseControlScaler (K := K)) t.controls.length buf =
        none := by
      intro hcut
      rw [hlength]
      exact times_broken (outputScaler_broken hcut houtput)
    have hpart : ∀ q'', q' = t.outputText ++ q'' → q'' <+: controlsText t.controls →
        (t.output = none → findnexttag q'' = some (ascii 'S')) →
        times (parseControlScaler (K := K)) t.controls.length buf = none := by
      intro q'' heq hq'' htag
      have hclean : Clean q'' := fun c hc => controlsText_clean _ c (hq''.subset hc)
      rw [heq, outputScaler_text t hclean (controlsText_head hq'') htag] at houtput
      rw [← (Prod.mk.inj (Option.some.inj houtput)).2]
      exact times_cut t.control_size hq'' fun hall => hne' (by rw [heq, hall])
    cases hline : t.output with
    | some o =>
      have htext : t.outputText = lineOf (ascii 'O') o.body := by
        rw [SimpleText.outputText, hline]
        rfl
      have hO : Broken (ascii 'O' :: o.body) := broken_cons ⟨by decide, by decide⟩ o.body_broken
      rw [htext] at hq'
      rcases prefix_line hO hq' with hcut | ⟨q'', rfl, hq''⟩
      · exact hbroken hcut
      · exact hpart q'' (by rw [htext]) hq'' fun hnone => absurd (hline ▸ hnone)
          (Option.some_ne_none o)
    | none =>
      have htext : t.outputText = [] := by
        rw [SimpleText.outputText, hline]
      have hS : Broken (ascii 'S' :: l.body) := broken_cons ⟨by decide, by decide⟩ l.body_broken
      rw [htext, List.nil_append] at hq'
      have hq'' := hq'
      rw [hcontrols, controlsText_cons] at hq''
      rcases prefix_line hS hq'' with hcut | ⟨r, heq, -⟩
      · exact hbroken hcut
      · refine hpart q' (by rw [htext, List.nil_append]) hq' fun _ => ?_
        rw [heq, lineOf_append, List.cons_append, List.cons_append, findnexttag]
        exact if_pos ⟨by decide, rfl⟩

/-! ### Null mixers and geometries -/

omit [Field K] in
theorem null_read (z : NullText) (rest : List UInt8) :
    nullFromText (K := K) (lineOf (ascii 'Z') z.blank ++ rest) =
      some (.null, z.blank ++ ascii '\n' :: rest) := by
  have hformed : stringWellFormed (lineOf (ascii 'Z') z.blank ++ rest) = true := by
    rw [lineOf_append]
    exact stringWellFormed_body _ _
  rw [nullFromText.eq_def, if_pos hformed, lineOf_append]
  rfl

theorem NullText.blank_broken (z : NullText) : Broken z.blank := fun c hc =>
  (blank_clean (z.blank_all c hc)).2

theorem MultirotorText.body_clean {keys : List (List UInt8)} (t : MultirotorText keys) {c : UInt8}
    (h : c ∈ t.blank ++ (t.geomname ++ t.trailing)) : c ≠ 0 ∧ c ≠ ascii '\n' ∧ c ≠ ascii '\r' := by
  rcases List.mem_append.mp h with hblank | h
  · exact blank_clean (t.blank_all c hblank)
  rcases List.mem_append.mp h with hname | htrailing
  · have hspace := (t.geomname_all c hname).1
    refine ⟨(t.geomname_all c hname).2, fun heq => ?_, fun heq => ?_⟩
    · rw [heq] at hspace
      exact nomatch hspace
    · rw [heq] at hspace
      exact nomatch hspace
  · exact t.trailing_all c htrailing

variable {cfg : Config K}

omit [Field K] in
theorem multirotor_read (t : MultirotorText cfg.config_key) {rest : List UInt8}
    (hrest : Clean rest) :
    multirotorFromText cfg (lineOf (ascii 'R') (t.blank ++ (t.geomname ++ t.trailing)) ++ rest) =
      some (.multirotor (cfg.config_key.idxOf t.geomname), rest) := by
  have hbroken : Broken (ascii 'R' :: (t.blank ++ (t.geomname ++ t.trailing))) :=
    broken_cons ⟨by decide, by decide⟩ fun c hc => (t.body_clean hc).2
  have hformed : stringWellFormed
      (lineOf (ascii 'R') (t.blank ++ (t.geomname ++ t.trailing)) ++ rest) = true := by
    rw [lineOf_append]
    exact stringWellFormed_body _ _
  have hskip := skipline_line hbroken hrest
  have hclean : Clean (lineOf (ascii 'R') (t.blank ++ (t.geomname ++ t.trailing)) ++ rest) :=
    clean_append.mpr ⟨lineOf_clean ⟨by decide, by decide⟩
      fun c hc => ⟨(t.body_clean hc).1, (t.body_clean hc).2.2⟩, hrest⟩
  have hwhole : (lineOf (ascii 'R') (t.blank ++ (t.geomname ++ t.trailing)) ++ rest).takeWhile
      (· ≠ 0) =
      lineOf (ascii 'R') (t.blank ++ (t.geomname ++ t.trailing)) ++ rest :=
    List.takeWhile_eq_self_iff.mpr fun c hc => decide_eq_true (hclean c hc).1
  -- behind the name comes white space, or the end of the line
  have hname : ((t.geomname ++ (t.trailing ++ ascii '\n' :: rest)).takeWhile fun c => !isSpace c) =
      t.geomname := by
    have hstop : (t.trailing ++ ascii '\n' :: rest).takeWhile (fun c => !isSpace c) = [] := by
      cases htrailing : t.trailing with
      | nil => exact List.takeWhile_cons_of_neg (by decide)
      | cons b bs =>
        have hb : isSpace b = true := t.trailing_head b (by rw [htrailing]; rfl)
        exact List.takeWhile_cons_of_neg (by rw [hb]; decide)
    rw [List.takeWhile_append_of_pos fun c hc => by rw [(t.geomname_all c hc).1]; rfl, hstop,
      List.append_nil]
  have hhead : (t.geomname ++ (t.trailing ++ ascii '\n' :: rest)).dropWhile isSpace =
      t.geomname ++ (t.trailing ++ ascii '\n' :: rest) := by
    obtain ⟨x, xs, heq⟩ := List.exists_cons_of_ne_nil t.geomname_ne
    have hx : isSpace x = false := (t.geomname_all x (heq ▸ List.mem_cons_self)).1
    rw [heq]
    exact List.dropWhile_cons_of_neg (by rw [hx]; exact Bool.false_ne_true)
  have hscan : sscanf [.char (ascii 'R'), .char (ascii ':'), .space, .word 15]
      (lineOf (ascii 'R') (t.blank ++ (t.geomname ++ t.trailing)) ++ rest) =
        [.word t.geomname] := by
    rw [sscanf, hwhole]
    rw [lineOf_append, List.cons_append, scan_char, List.cons_append, scan_char, scan,
      List.append_assoc, List.append_assoc, dropWhile_blank t.blank_all, hhead, scan, hhead]
    rw [hname, List.take_of_length_le t.geomname_length, if_neg t.geomname_ne, scan]
  have hknown : cfg.config_key.findIdx? (· = t.geomname) =
      some (cfg.config_key.idxOf t.geomname) := by
    refine List.findIdx?_eq_some_iff_findIdx_eq.mpr ⟨List.idxOf_lt_length_of_mem t.known, ?_⟩
    refine congrArg (List.findIdx · cfg.config_key) (funext fun x => ?_)
    rw [Bool.eq_iff_iff, beq_iff_eq, decide_eq_true_eq]
  rw [multirotorFromText, if_pos hformed, hscan]
  dsimp only
  rw [hskip]
  dsimp only
  rw [hknown]

/-! ### A mixer is read whatever comes behind -/

theorem NullText.body_clean (z : NullText) : Clean (lineOf (ascii 'Z') z.blank) :=
  lineOf_clean ⟨by decide, by decide⟩ fun c hc =>
    ⟨(blank_clean (z.blank_all c hc)).1, (blank_clean (z.blank_all c hc)).2.2⟩

theorem Definition.text_clean {keys : List (List UInt8)} (d : Definition keys) : Clean d.text := by
  cases d with
  | null z => exact z.body_clean
  | simple t =>
    exact clean_append.mpr ⟨t.count.text_clean ⟨by decide, by decide⟩,
      clean_append.mpr ⟨outputText_clean t, controlsText_clean _⟩⟩
  | multirotor t =>
    exact lineOf_clean ⟨by decide, by decide⟩ fun c hc => ⟨(t.body_clean hc).1,
      (t.body_clean hc).2.2⟩

theorem textOf_clean {keys : List (List UInt8)} (defs : List (Definition keys)) : Clean
    (textOf defs) := by
  intro c hc
  obtain ⟨d, -, hd⟩ := List.mem_flatMap.mp hc
  exact d.text_clean c hd

theorem textOf_cons {keys : List (List UInt8)} (d : Definition keys)
    (defs : List (Definition keys)) :
    textOf (d :: defs) = d.text ++ textOf defs := List.flatMap_cons

theorem load_blank {blank : List UInt8} (h : ∀ c ∈ blank, c = 32 ∨ c = 9) (rest : List UInt8) :
    loadFromBuf cfg (blank ++ rest) = loadFromBuf cfg rest := by
  induction blank with
  | nil => rfl
  | cons c blank ih =>
    have hskip : fromText cfg c = none := by
      rcases h c List.mem_cons_self with rfl | rfl
      · rfl
      · rfl
    rw [List.cons_append, loadFromBuf_skip hskip]
    exact ih fun x hx => h x (List.mem_cons_of_mem c hx)

/-- **A mixer is read**, whatever comes behind it. -/
theorem Definition.read (d : Definition cfg.config_key) {rest : List UInt8} (hrest : Clean rest) :
    loadFromBuf cfg (d.text ++ rest) =
      (d.mixer :: (loadFromBuf cfg rest).1, (loadFromBuf cfg rest).2) := by
  cases d with
  | null z =>
    have hfrom : fromText cfg (ascii 'Z') = some nullFromText := rfl
    have hlf : fromText cfg (ascii '\n') = none := rfl
    have hmade := loadFromBuf_made hfrom (null_read z rest)
    rw [load_blank z.blank_all, loadFromBuf_skip hlf] at hmade
    exact hmade
  | simple t =>
    have hfrom : fromText cfg (ascii 'M') = some simpleFromText := rfl
    exact loadFromBuf_made hfrom (simple_read t hrest)
  | multirotor t =>
    have hfrom : fromText cfg (ascii 'R') = some (multirotorFromText cfg) := rfl
    exact loadFromBuf_made hfrom (multirotor_read t hrest)

theorem line_cut {tag : UInt8} {body q : List UInt8}
    {from_text : List UInt8 → Option (Mixer K × List UInt8)}
    (hfrom : fromText cfg tag = some from_text)
    (hbroken : ∀ q, Broken q → from_text q = none) (hbody : Broken (tag :: body))
    (hq : q <+: lineOf tag body) (hne : q ≠ lineOf tag body) : loadFromBuf cfg q = ([], q) := by
  cases q with
  | nil => rfl
  | cons c cs =>
    have hc : c = tag := (List.cons_prefix_cons.mp hq).1
    subst hc
    rw [← List.append_nil (lineOf c body)] at hq
    rcases prefix_line hbody hq with hcut | ⟨q', heq, hq'⟩
    · exact loadFromBuf_failed hfrom (hbroken _ hcut)
    · rw [List.prefix_nil.mp hq', List.append_nil] at heq
      exact absurd heq hne

/-- **A part of it is not read.** -/
theorem Definition.cut_off (d : Definition cfg.config_key) {q : List UInt8} (hq : q <+: d.text)
    (hne : q ≠ d.text) : loadFromBuf cfg q = ([], q) := by
  cases d with
  | null z =>
    have hfrom : fromText cfg (ascii 'Z') = some nullFromText := rfl
    refine line_cut hfrom (fun q hcut => ?_) ?_ hq hne
    · rw [nullFromText.eq_def, if_neg (by rw [hcut.stringWellFormed]; exact Bool.false_ne_true)]
    · exact broken_cons ⟨by decide, by decide⟩ z.blank_broken
  | simple t =>
    cases q with
    | nil => rfl
    | cons c cs =>
      have hc : c = ascii 'M' := (List.cons_prefix_cons.mp hq).1
      subst hc
      have hfrom : fromText cfg (ascii 'M') = some simpleFromText := rfl
      exact loadFromBuf_failed hfrom (simple_cut t hq hne)
  | multirotor t =>
    have hfrom : fromText cfg (ascii 'R') = some (multirotorFromText cfg) := rfl
    refine line_cut hfrom (fun q hcut => ?_) ?_ hq hne
    · rw [multirotorFromText, if_neg (by rw [hcut.stringWellFormed]; exact Bool.false_ne_true)]
    · exact broken_cons ⟨by decide, by decide⟩ fun c hc => (t.body_clean hc).2

/-- **Loading goes on**: what is left, with the next piece, is read as in the whole text. -/
theorem load_append {defs : List (Definition cfg.config_key)} {q c : List UInt8}
    (h : q ++ c <+: textOf defs) :
    loadFromBuf cfg (q ++ c) =
      ((loadFromBuf cfg q).1 ++ (loadFromBuf cfg ((loadFromBuf cfg q).2 ++ c)).1,
        (loadFromBuf cfg ((loadFromBuf cfg q).2 ++ c)).2) := by
  induction defs generalizing q with
  | nil =>
    obtain ⟨rfl, rfl⟩ := List.append_eq_nil_iff.mp (List.prefix_nil.mp h)
    rfl
  | cons d defs ih =>
    have hq : q <+: d.text ++ textOf defs := (List.prefix_append q c).trans h
    by_cases hwhole : d.text <+: q
    · obtain ⟨q', rfl⟩ := hwhole
      rw [textOf_cons, List.append_assoc, List.prefix_append_right_inj] at h
      have hclean : Clean (q' ++ c) := fun x hx => textOf_clean defs x (h.subset hx)
      rw [List.append_assoc, d.read hclean, d.read (clean_append.mp hclean).1, ih h]
      rfl
    · have hcut : q <+: d.text := by
        rcases List.prefix_or_prefix_of_prefix hq (List.prefix_append _ _) with hcut | hall
        · exact hcut
        · exact absurd hall hwhole
      have hne : q ≠ d.text := fun heq => hwhole (heq ▸ List.prefix_rfl)
      rw [d.cut_off hcut hne]
      rfl

theorem load_textOf (defs : List (Definition cfg.config_key)) :
    loadFromBuf cfg (textOf defs) = (defs.map Definition.mixer, []) := by
  induction defs with
  | nil => rfl
  | cons d defs ih =>
    rw [textOf_cons, d.read (textOf_clean defs), ih]
    rfl

/-! ### The pieces -/

def parser (cfg : Config K) : Px4io.MixerParser (List (Mixer K)) where
  empty := []
  loadFromBuf group text := (group ++ (loadFromBuf cfg text).1, (loadFromBuf cfg text).2.length)
  resid_le _ text := (loadFromBuf_rest cfg text).1.length_le

def addChunk (cfg : Config K) (m : Px4io.MixerText (List (Mixer K))) (chunk : List UInt8) :
    Px4io.MixerText (List (Mixer K)) :=
  ((m.handleText false .APPEND chunk).1.createMixer (parser cfg) false).1

/-- There is a place for each piece when it comes. -/
def Fits (cfg : Config K) : Px4io.MixerText (List (Mixer K)) → List (List UInt8) → Prop
  | _, [] => True
  | m, chunk :: chunks =>
    m.mixer_text.length + chunk.length + 1 ≤ Px4io.MAX_MIXER_LENGTH ∧
      Fits cfg (addChunk cfg m chunk) chunks

def emptyText : Px4io.MixerText (List (Mixer K)) := ⟨[], [], false, false⟩

def loaded (cfg : Config K) (q : List UInt8) : Px4io.MixerText (List (Mixer K)) :=
  ⟨(loadFromBuf cfg q).1, (loadFromBuf cfg q).2, false, false⟩

theorem cut_suffix {G : Type*} (group : G) (update reset : Bool) {text rest : List UInt8}
    (h : rest <:+ text) :
    (⟨group, text, update, reset⟩ : Px4io.MixerText G).cut rest.length =
      ⟨group, rest, update, reset⟩ := by
  have hdrop := List.suffix_iff_eq_drop.mp h
  rw [Px4io.MixerText.cut]
  split_ifs with hne
  · rw [← hdrop]
  · have hall : rest = text := by
      have hlength : rest.length = text.length := not_not.mp hne
      rw [hlength, Nat.sub_self, List.drop_zero] at hdrop
      exact hdrop
    rw [hall]

theorem addChunk_loaded {defs : List (Definition cfg.config_key)} {q chunk : List UInt8}
    (h : q ++ chunk <+: textOf defs) (hchunk : chunk ≠ [])
    (hfits : (loaded cfg q).mixer_text.length + chunk.length + 1 ≤ Px4io.MAX_MIXER_LENGTH) :
    addChunk cfg (loaded cfg q) chunk = loaded cfg (q ++ chunk) := by
  have happend : ((loaded cfg q).handleText false .APPEND chunk).1 =
      ⟨(loadFromBuf cfg q).1, (loadFromBuf cfg q).2 ++ chunk, true, false⟩ := by
    rw [Px4io.MixerText.handleText, if_neg Bool.false_ne_true, Px4io.MixerText.append,
      if_neg (not_lt.mpr hfits)]
    rfl
  have hsettled : Px4io.MixerText.settled (⟨(loadFromBuf cfg q).1, (loadFromBuf cfg q).2 ++ chunk,
      true, false⟩ : Px4io.MixerText (List (Mixer K))) = false := by
    have hlength : (loadFromBuf cfg q).2.length + chunk.length ≠ 0 := by
      have := List.length_pos_iff.mpr hchunk
      omega
    rw [Px4io.MixerText.settled, List.length_append, beq_eq_false_iff_ne.mpr hlength]
    rfl
  have hrest := (loadFromBuf_rest cfg ((loadFromBuf cfg q).2 ++ chunk)).1
  rw [addChunk, happend, Px4io.MixerText.createMixer, if_neg Bool.false_ne_true]
  dsimp only
  rw [if_neg Bool.false_ne_true, hsettled, if_neg Bool.false_ne_true]
  dsimp only [parser]
  rw [cut_suffix _ _ _ hrest, loaded, load_append h]

theorem foldl_loaded {defs : List (Definition cfg.config_key)} {q : List UInt8}
    {chunks : List (List UInt8)} (h : q ++ chunks.flatten <+: textOf defs)
    (hne : ∀ c ∈ chunks, c ≠ []) (hfits : Fits cfg (loaded cfg q) chunks) :
    chunks.foldl (addChunk cfg) (loaded cfg q) = loaded cfg (q ++ chunks.flatten) := by
  induction chunks generalizing q with
  | nil =>
    rw [List.flatten_nil, List.append_nil]
    rfl
  | cons chunk chunks ih =>
    rw [List.flatten_cons, ← List.append_assoc] at h
    have hchunk := addChunk_loaded ((List.prefix_append _ _).trans h)
      (hne chunk List.mem_cons_self) hfits.1
    have hfits' := hfits.2
    rw [hchunk] at hfits'
    rw [List.foldl_cons, hchunk, ih h (fun c hc => hne c (List.mem_cons_of_mem _ hc)) hfits',
      List.flatten_cons, List.append_assoc]

/-- What is required of loading mixers. -/
structure ChunkedLoading (cfg : Config K) : Prop where
  /-- Nothing of a text is left. -/
  whole : ∀ defs : List (Definition cfg.config_key),
    loadFromBuf cfg (textOf defs) = (defs.map Definition.mixer, [])
  /-- For every partition into pieces that fit, the mixers are those of the whole text. -/
  chunks : ∀ (defs : List (Definition cfg.config_key)) (chunks : List (List UInt8)),
    chunks.flatten = textOf defs → (∀ c ∈ chunks, c ≠ []) → Fits cfg emptyText chunks →
      (chunks.foldl (addChunk cfg) emptyText).group = (loadFromBuf cfg (textOf defs)).1 ∧
        (chunks.foldl (addChunk cfg) emptyText).mixer_text = []
  /-- The loop ends on every text. -/
  ends : ∀ buf : List UInt8, ∃ n, load cfg n buf = some (loadFromBuf cfg buf)
  /-- What is left is empty, or it begins with a mixer that cannot be built. -/
  failed : ∀ buf : List UInt8, (loadFromBuf cfg buf).2 <:+ buf ∧
    ((loadFromBuf cfg buf).2 = [] ∨ ∃ c cs from_text, (loadFromBuf cfg buf).2 = c :: cs ∧
      fromText cfg c = some from_text ∧ from_text (c :: cs) = none)

/-- **Mixers whose text comes in pieces are those of the whole text.** -/
theorem chunkedLoading (cfg : Config K) : ChunkedLoading cfg where
  whole := load_textOf
  chunks := by
    intro defs chunks htext hne hfits
    have hstart : (emptyText : Px4io.MixerText (List (Mixer K))) = loaded cfg [] := rfl
    have hprefix : [] ++ chunks.flatten <+: textOf defs :=
      ⟨[], by rw [List.append_nil, List.nil_append, htext]⟩
    have hall := foldl_loaded hprefix hne (hstart ▸ hfits)
    rw [List.nil_append, htext] at hall
    rw [hstart, hall]
    exact ⟨rfl, congrArg Prod.snd (load_textOf defs)⟩
  ends buf := ⟨buf.length, load_eq le_rfl⟩
  failed := loadFromBuf_rest cfg

end

/-- No mixer and a geometry, in three pieces. -/
def quad : Config ℚ := ⟨[[52, 120]], 22 / 7⟩

def quadText : List (Definition quad.config_key) :=
  [.null ⟨[32], by simp⟩, .multirotor ⟨[32], [52, 120], [], by simp, by simp,
    by simp [Scanf.isSpace], by simp, by simp [quad], by simp, by simp⟩]

theorem quad_loaded : ([[90, 58], [32, 10, 82], [58, 32, 52, 120, 10]].foldl (addChunk quad)
    emptyText).group = [.null, .multirotor 0] := by
  obtain ⟨hgroup, -⟩ := (chunkedLoading quad).chunks quadText
    [[90, 58], [32, 10, 82], [58, 32, 52, 120, 10]] (by decide) (by decide)
    ⟨by decide, by decide, by decide, trivial⟩
  rw [hgroup, (chunkedLoading quad).whole quadText]
  rfl

end MixerGroup
