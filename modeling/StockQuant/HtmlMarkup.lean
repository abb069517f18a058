import Mathlib.Data.List.DropRight

/-! The markup that a reader of HTML finds in a text: its tags with their attributes, and its
comments. This is the tokenization of the HTML standard, with attribute values as they are
written. A doctype is read as the comment that ends where it ends, and every element as one
that may have others inside. -/

namespace HtmlMarkup

structure Tag where
  closing : Bool := false
  name : List Char
  attributes : List (List Char × List Char) := []
  selfClosing : Bool := false
  deriving DecidableEq

inductive Markup where
  | tag (t : Tag)
  | comment (data : List Char)
  deriving DecidableEq

inductive Quote where
  | double
  | single
  deriving DecidableEq

def Quote.char : Quote → Char
  | double => '"'
  | single => '\''

/-- The states between two characters. What comes after a quoted value is read as what comes
after a space. -/
inductive Phase where
  | data
  | tagOpen
  | endTagOpen
  | tagName (t : Tag)
  | beforeAttributeName (t : Tag)
  | attributeName (t : Tag) (name : List Char)
  | afterAttributeName (t : Tag) (name : List Char)
  | beforeAttributeValue (t : Tag) (name : List Char)
  | quotedValue (quote : Quote) (t : Tag) (name value : List Char)
  | unquotedValue (t : Tag) (name value : List Char)
  | selfClosingTag (t : Tag)
  | markupDeclaration
  | markupDeclarationDash
  | bogusComment (data : List Char)
  | commentStart
  | commentStartDash
  | comment (data : List Char)
  | commentEndDash (data : List Char)
  | commentEnd (data : List Char)
  | commentEndBang (data : List Char)
  deriving DecidableEq

def isSpace (c : Char) : Bool := c ∈ ['\t', '\n', '\x0c', '\r', ' ']

/-- The first of two attributes with one name stays. -/
def Tag.add (t : Tag) (name value : List Char) : Tag :=
  if name ∈ t.attributes.map Prod.fst then t
  else { t with attributes := t.attributes ++ [(name, value)] }

def inData (c : Char) : Phase × Option Markup :=
  if c = '<' then (.tagOpen, none) else (.data, none)

def beforeName (t : Tag) (c : Char) : Phase × Option Markup :=
  if isSpace c then (.beforeAttributeName t, none)
  else if c = '/' then (.selfClosingTag t, none)
  else if c = '>' then (.data, some (.tag t))
  else (.attributeName t [c.toLower], none)

def afterName (t : Tag) (name : List Char) (c : Char) : Phase × Option Markup :=
  if isSpace c then (.afterAttributeName t name, none)
  else if c = '=' then (.beforeAttributeValue t name, none)
  else beforeName (t.add name []) c

def inComment (data : List Char) (c : Char) : Phase × Option Markup :=
  if c = '-' then (.commentEndDash data, none) else (.comment (data ++ [c]), none)

def step : Phase → Char → Phase × Option Markup
  | .data, c => inData c
  | .tagOpen, c =>
    if c = '!' then (.markupDeclaration, none)
    else if c = '/' then (.endTagOpen, none)
    else if c.isAlpha then (.tagName { name := [c.toLower] }, none)
    else if c = '?' then (.bogusComment ['?'], none)
    else inData c
  | .endTagOpen, c =>
    if c.isAlpha then (.tagName { closing := true, name := [c.toLower] }, none)
    else if c = '>' then (.data, none)
    else (.bogusComment [c], none)
  | .tagName t, c =>
    if isSpace c ∨ c = '/' ∨ c = '>' then beforeName t c
    else (.tagName { t with name := t.name ++ [c.toLower] }, none)
  | .beforeAttributeName t, c => beforeName t c
  | .attributeName t name, c =>
    if isSpace c ∨ c = '/' ∨ c = '>' ∨ c = '=' then afterName t name c
    else (.attributeName t (name ++ [c.toLower]), none)
  | .afterAttributeName t name, c => afterName t name c
  | .beforeAttributeValue t name, c =>
    if isSpace c then (.beforeAttributeValue t name, none)
    else if c = '"' then (.quotedValue .double t name [], none)
    else if c = '\'' then (.quotedValue .single t name [], none)
    else if c = '>' then (.data, some (.tag (t.add name [])))
    else (.unquotedValue t name [c], none)
  | .quotedValue quote t name value, c =>
    if c = quote.char then (.beforeAttributeName (t.add name value), none)
    else (.quotedValue quote t name (value ++ [c]), none)
  | .unquotedValue t name value, c =>
    if isSpace c then (.beforeAttributeName (t.add name value), none)
    else if c = '>' then (.data, some (.tag (t.add name value)))
    else (.unquotedValue t name (value ++ [c]), none)
  | .selfClosingTag t, c =>
    if c = '>' then (.data, some (.tag { t with selfClosing := true })) else beforeName t c
  | .markupDeclaration, c =>
    if c = '-' then (.markupDeclarationDash, none)
    else if c = '>' then (.data, some (.comment []))
    else (.bogusComment [c], none)
  | .markupDeclarationDash, c =>
    if c = '-' then (.commentStart, none)
    else if c = '>' then (.data, some (.comment ['-']))
    else (.bogusComment ['-', c], none)
  | .bogusComment data, c =>
    if c = '>' then (.data, some (.comment data)) else (.bogusComment (data ++ [c]), none)
  | .commentStart, c =>
    if c = '-' then (.commentStartDash, none)
    else if c = '>' then (.data, some (.comment []))
    else inComment [] c
  | .commentStartDash, c =>
    if c = '-' then (.commentEnd [], none)
    else if c = '>' then (.data, some (.comment []))
    else inComment ['-'] c
  | .comment data, c => inComment data c
  | .commentEndDash data, c =>
    if c = '-' then (.commentEnd data, none) else inComment (data ++ ['-']) c
  | .commentEnd data, c =>
    if c = '>' then (.data, some (.comment data))
    else if c = '!' then (.commentEndBang data, none)
    else if c = '-' then (.commentEnd (data ++ ['-']), none)
    else inComment (data ++ ['-', '-']) c
  | .commentEndBang data, c =>
    if c = '-' then (.commentEndDash (data ++ ['-', '-', '!']), none)
    else if c = '>' then (.data, some (.comment data))
    else inComment (data ++ ['-', '-', '!']) c

/-- The end of the text ends a comment and drops a tag. -/
def Phase.atEnd : Phase → Option Markup
  | .markupDeclaration | .commentStart | .commentStartDash => some (.comment [])
  | .markupDeclarationDash => some (.comment ['-'])
  | .bogusComment text | .comment text | .commentEndDash text | .commentEnd text
  | .commentEndBang text => some (.comment text)
  | _ => none

def scan : Phase → List Char → Phase × List Markup
  | p, [] => (p, [])
  | p, c :: cs => ((scan (step p c).1 cs).1, (step p c).2.toList ++ (scan (step p c).1 cs).2)

/-- The markup from a phase on. -/
def markupFrom (p : Phase) (cs : List Char) : List Markup :=
  (scan p cs).2 ++ (scan p cs).1.atEnd.toList

def markup (cs : List Char) : List Markup := markupFrom .data cs

theorem scan_cons_of_none {p : Phase} {c : Char} (h : (step p c).2 = none) (cs : List Char) :
    scan p (c :: cs) = scan (step p c).1 cs := by
  simp [scan, h]

theorem scan_append (p : Phase) (cs ds : List Char) :
    scan p (cs ++ ds) =
      ((scan (scan p cs).1 ds).1, (scan p cs).2 ++ (scan (scan p cs).1 ds).2) := by
  induction cs generalizing p with
  | nil => rfl
  | cons c cs ih => simp [scan, ih]

theorem scan_last (p : Phase) (cs : List Char) (c : Char) :
    (scan p (cs ++ [c])).1 = (step (scan p cs).1 c).1 := by
  rw [scan_append]
  rfl

theorem markupFrom_append (p : Phase) (cs ds : List Char) :
    markupFrom p (cs ++ ds) = (scan p cs).2 ++ markupFrom (scan p cs).1 ds := by
  simp [markupFrom, scan_append]

theorem markupFrom_cons (p : Phase) (c : Char) (cs : List Char) :
    markupFrom p (c :: cs) = (step p c).2.toList ++ markupFrom (step p c).1 cs := by
  simp [markupFrom, scan]

/-- What follows a `<` makes it markup. -/
def opensTag : List Char → Bool
  | [] => false
  | c :: cs => c.isAlpha || c == '!' || c == '?' || (c == '/' && cs.head? != some '>')

def opensMarkup : List Char → Bool
  | [] => false
  | c :: cs => (c == '<' && opensTag cs) || opensMarkup cs

/-- A character that neither begins nor ends anything. -/
def plain (c : Char) : Bool :=
  !c.isAlpha && !isSpace c && c ∉ ['<', '>', '/', '!', '?', '=', '-', '"', '\'']

variable {c d : Char} {cs : List Char} {p : Phase}

/-- The text stands outside of all markup. -/
def Phase.Outside : Phase → Prop
  | .data | .tagOpen | .endTagOpen => True
  | _ => False

theorem scan_tagOpen (hd : plain d) (h : opensTag cs = false) :
    scan .tagOpen (cs ++ [d]) = scan .data (cs ++ [d]) := by
  simp only [plain, Bool.and_eq_true, Bool.not_eq_true', decide_eq_true_eq, List.mem_cons,
    not_or] at hd
  cases cs with
  | nil => simp [scan, step, hd]
  | cons c cs =>
    simp only [opensTag, Bool.or_eq_false_iff, beq_eq_false_iff_ne] at h
    by_cases hc : c = '/'
    · subst hc
      cases cs with
      | nil => simp at h
      | cons c' cs =>
        obtain rfl : c' = '>' := by simpa using h
        simp [scan, step, inData]
    · simp [scan, step, h, hc]

theorem scan_inert (hd : plain d) (h : opensMarkup cs = false) :
    scan .data (cs ++ [d]) = (.data, []) := by
  induction cs with
  | nil =>
    simp only [plain, Bool.and_eq_true, decide_eq_true_eq, List.mem_cons, not_or] at hd
    simp [scan, step, inData, hd]
  | cons c cs ih =>
    simp only [opensMarkup, Bool.or_eq_false_iff] at h
    have ih := ih h.2
    by_cases hc : c = '<'
    · have htag : opensTag cs = false := by simpa [hc] using h.1
      simp [scan, step, inData, hc, scan_tagOpen hd htag, ih]
    · simp [scan, step, inData, hc, ih]

theorem scan_text (h : '<' ∉ cs) : scan .data cs = (.data, []) := by
  induction cs with
  | nil => rfl
  | cons c cs ih =>
    simp only [List.mem_cons, not_or] at h
    simp [scan, step, inData, Ne.symm h.1, ih h.2]

theorem inside_step (h : ¬p.Outside) (c : Char) :
    ¬(step p c).1.Outside ∨ (step p c).2 ≠ none := by
  cases p with
  | data | tagOpen | endTagOpen => exact absurd trivial h
  | _ =>
    simp only [step, beforeName, afterName, inComment]
    split_ifs <;> simp [Phase.Outside]

theorem inside_scan (h : ¬p.Outside) (cs : List Char) :
    ¬(scan p cs).1.Outside ∨ (scan p cs).2 ≠ [] := by
  induction cs generalizing p with
  | nil => exact Or.inl h
  | cons c cs ih =>
    rcases inside_step h c with hinside | hemits
    · exact (ih hinside).imp_right fun hne => by simp [scan, hne]
    · right
      cases hstep : (step p c).2 with
      | none => exact absurd hstep hemits
      | some m => simp [scan, hstep]

theorem step_tagOpen_inside (h : c.isAlpha ∨ c = '!' ∨ c = '?') :
    ¬(step .tagOpen c).1.Outside ∧ (step .tagOpen c).2 = none := by
  rcases h with h | rfl | rfl
  · have hslash : c ≠ '/' := by
      rintro rfl
      simp at h
    simp only [step, hslash, h, if_true, if_false]
    split_ifs <;> simp [Phase.Outside]
  · simp [step, Phase.Outside]
  · simp [step, Phase.Outside]

theorem step_endTagOpen_inside (hc : c ≠ '>') :
    ¬(step .endTagOpen c).1.Outside ∧ (step .endTagOpen c).2 = none := by
  simp only [step, hc, if_false]
  split_ifs <;> simp [Phase.Outside]

theorem scan_opensTag (hd : plain d) (h : opensTag cs) :
    ∃ p ds, ¬p.Outside ∧ scan .tagOpen (cs ++ [d]) = scan p ds := by
  cases cs with
  | nil => simp [opensTag] at h
  | cons c cs =>
    by_cases hc : c = '/'
    · -- The next character is the one after the text when the text ends here.
      obtain ⟨c', ds, hds, hne⟩ : ∃ c' ds, cs ++ [d] = c' :: ds ∧ c' ≠ '>' := by
        cases cs with
        | nil =>
          refine ⟨d, [], rfl, ?_⟩
          rintro rfl
          simp [plain] at hd
        | cons c' cs =>
          refine ⟨c', cs ++ [d], rfl, ?_⟩
          rintro rfl
          simp [opensTag, hc] at h
      obtain ⟨hinside, hnone⟩ := step_endTagOpen_inside hne
      refine ⟨_, ds, hinside, ?_⟩
      rw [← scan_cons_of_none hnone, ← hds, hc]
      exact scan_cons_of_none rfl _
    · have hopens : c.isAlpha ∨ c = '!' ∨ c = '?' := by
        simpa [opensTag, hc, or_assoc] using h
      obtain ⟨hinside, hnone⟩ := step_tagOpen_inside hopens
      exact ⟨_, cs ++ [d], hinside, scan_cons_of_none hnone _⟩

/-- The converse: text that opens markup has some of it read, or leaves the reader inside. -/
theorem scan_markup (hd : plain d) (h : opensMarkup cs) :
    ¬(scan .data (cs ++ [d])).1.Outside ∨ (scan .data (cs ++ [d])).2 ≠ [] := by
  induction cs with
  | nil => simp [opensMarkup] at h
  | cons c cs ih =>
    by_cases hopens : c = '<' ∧ opensTag cs
    · obtain ⟨rfl, htag⟩ := hopens
      obtain ⟨p, ds, hinside, hscan⟩ := scan_opensTag hd htag
      have hstep : scan .data ('<' :: cs ++ [d]) = scan .tagOpen (cs ++ [d]) := by
        simp [scan, step, inData]
      rw [hstep, hscan]
      exact inside_scan hinside ds
    · have hmore : opensMarkup cs := by
        simp only [opensMarkup, Bool.or_eq_true, Bool.and_eq_true, beq_iff_eq] at h
        exact h.resolve_left hopens
      by_cases hc : c = '<'
      · have htag : opensTag cs = false := by simpa [hc] using hopens
        simpa [scan, step, inData, hc, scan_tagOpen hd htag] using ih hmore
      · simpa [scan, step, inData, hc] using ih hmore

/-- What a text that opens no markup is put between is read as if it were not there. -/
theorem markup_inert {before after : List Char} (hbefore : (scan .data before).1 = .data)
    (hd : plain d) (h : opensMarkup cs = false) :
    markup (before ++ (cs ++ [d]) ++ after) = (scan .data before).2 ++ markupFrom .data after := by
  rw [markup, markupFrom_append, scan_append, hbefore, scan_inert hd h, List.append_nil]

theorem opensMarkup_text (h : '<' ∉ cs) : opensMarkup cs = false := by
  induction cs with
  | nil => rfl
  | cons c cs ih =>
    simp only [List.mem_cons, not_or] at h
    simp [opensMarkup, Ne.symm h.1, ih h.2]

theorem opensMarkup_dropWhile {space : Char → Bool} (hspace : ∀ c, space c → c ≠ '<') :
    opensMarkup (cs.dropWhile space) = opensMarkup cs := by
  induction cs with
  | nil => rfl
  | cons c cs ih =>
    by_cases hc : space c
    · simp [hc, ih, opensMarkup, hspace c hc]
    · simp [hc]

theorem opensTag_append {spaces : List Char}
    (hspaces : ∀ c ∈ spaces, c.isAlpha = false ∧ c ∉ ['<', '>', '/', '!', '?']) :
    opensTag (cs ++ spaces) = opensTag cs := by
  cases spaces with
  | nil => rw [List.append_nil]
  | cons space spaces =>
    obtain ⟨halpha, hspace⟩ := hspaces space List.mem_cons_self
    simp only [List.mem_cons, not_or] at hspace
    rcases cs with - | ⟨c, - | ⟨c', cs⟩⟩
    · simp [opensTag, halpha, hspace]
    · have hgt : (some space != some '>') = true := bne_iff_ne.mpr fun heq =>
        hspace.2.1 (Option.some.inj heq)
      have hend : ((none : Option Char) != some '>') = true := rfl
      simp [opensTag, hgt, hend]
    · rfl

theorem opensMarkup_append {spaces : List Char}
    (hspaces : ∀ c ∈ spaces, c.isAlpha = false ∧ c ∉ ['<', '>', '/', '!', '?']) :
    opensMarkup (cs ++ spaces) = opensMarkup cs := by
  induction cs with
  | nil =>
    exact opensMarkup_text fun h => (hspaces _ h).2 List.mem_cons_self
  | cons c cs ih => simp only [List.cons_append, opensMarkup, opensTag_append hspaces, ih]

theorem opensMarkup_rdropWhile {space : Char → Bool}
    (hspace : ∀ c, space c → c.isAlpha = false ∧ c ∉ ['<', '>', '/', '!', '?']) :
    opensMarkup (cs.rdropWhile space) = opensMarkup cs := by
  induction cs using List.reverseRecOn with
  | nil => rfl
  | append_singleton cs c ih =>
    by_cases hc : space c
    · rw [List.rdropWhile_concat_pos _ _ _ hc, ih]
      exact (opensMarkup_append fun c' hc' => hspace c' (List.mem_singleton.mp hc' ▸ hc)).symm
    · rw [List.rdropWhile_concat_neg _ _ _ hc]

theorem comment_step (h : p.atEnd ≠ none) (c : Char) :
    (step p c).1.atEnd ≠ none ∨ ∃ text, (step p c).2 = some (.comment text) := by
  cases p with
  | markupDeclaration | markupDeclarationDash | bogusComment | commentStart | commentStartDash
  | comment | commentEndDash | commentEnd | commentEndBang =>
    simp only [step, inComment]
    split_ifs <;> simp [Phase.atEnd]
  | _ => simp [Phase.atEnd] at h

theorem comment_of_atEnd (h : p.atEnd ≠ none) : ∃ text, p.atEnd = some (.comment text) := by
  cases p <;> simp [Phase.atEnd] at h ⊢

theorem comment_mem_markupFrom (h : p.atEnd ≠ none) (cs : List Char) :
    ∃ text, .comment text ∈ markupFrom p cs := by
  induction cs generalizing p with
  | nil =>
    obtain ⟨text, htext⟩ := comment_of_atEnd h
    exact ⟨text, by simp [markupFrom, scan, htext]⟩
  | cons c cs ih =>
    rw [markupFrom_cons]
    rcases comment_step h c with hstill | ⟨text, htext⟩
    · obtain ⟨text, htext⟩ := ih hstill
      exact ⟨text, List.mem_append_right _ htext⟩
    · exact ⟨text, by simp [htext]⟩

/-- The reader is in a word of a tag. -/
def Phase.InWord : Phase → Prop
  | .tagName _ | .attributeName _ _ | .unquotedValue _ _ _ => True
  | _ => False

/-- Where a character that means nothing can leave the reader. -/
theorem step_plain (hd : plain d) (p : Phase) :
    (step p d).1 = .data ∨ (step p d).1.atEnd ≠ none ∨ (step p d).1.InWord ∨
      ∃ quote t name value, (step p d).1 = .quotedValue quote t name value := by
  simp only [plain, Bool.and_eq_true, Bool.not_eq_true', decide_eq_true_eq, List.mem_cons,
    not_or] at hd
  cases p with
  | quotedValue quote =>
    have hquote : d ≠ quote.char := by cases quote <;> simp [Quote.char, hd]
    simp [step, hquote]
  | _ => simp [step, inData, beforeName, afterName, inComment, Phase.atEnd, Phase.InWord, hd]

theorem scan_quoted (quote : Quote) (h : quote.char ∉ cs) (t : Tag) (name value : List Char) :
    scan (.quotedValue quote t name value) cs = (.quotedValue quote t name (value ++ cs), []) := by
  induction cs generalizing value with
  | nil => simp [scan]
  | cons c cs ih =>
    simp only [List.mem_cons, not_or] at h
    have hstep : step (.quotedValue quote t name value) c =
        (.quotedValue quote t name (value ++ [c]), none) := by simp [step, Ne.symm h.1]
    rw [scan_cons_of_none (by rw [hstep]), hstep, ih h.2, List.append_assoc]
    rfl

def Tag.Has (name : List Char) (t : Tag) : Prop := name ∈ t.attributes.map Prod.fst

@[simp] theorem has_add {t : Tag} {name other value : List Char} :
    (t.add name value).Has other ↔ other = name ∨ t.Has other := by
  unfold Tag.Has Tag.add
  split_ifs with h
  · exact ⟨Or.inr, fun hor => hor.elim (fun heq => heq ▸ h) id⟩
  · simp [or_comm]

def Markup.within (names : List (List Char)) : Markup → Bool
  | .tag t => t.attributes.all (·.1 ∈ names)
  | .comment _ => false

theorem within_of_has {t : Tag} {name : List Char} {names : List (List Char)} (h : t.Has name)
    (hname : name ∉ names) : (Markup.tag t).within names = false := by
  obtain ⟨a, ha, rfl⟩ := List.mem_map.mp h
  exact List.all_eq_false.mpr ⟨a, ha, by simpa using hname⟩

def Markup.link? : Markup → Option (List Char)
  | .tag t => t.attributes.lookup ['h', 'r', 'e', 'f']
  | .comment _ => none

def links (m : List Markup) : List (List Char) := m.filterMap Markup.link?

/-- The text takes the reader from one phase to another, over such tags, with these links. -/
structure Reads (names : List (List Char)) (p : Phase) (s : String) (linked : List (List Char))
    (q : Phase) : Prop where
  phase : (scan p s.toList).1 = q
  within : (scan p s.toList).2.all (Markup.within names) = true
  linked : links (scan p s.toList).2 = linked

section Reads

variable {names : List (List Char)} {q r : Phase} {s t : String} {l l' : List (List Char)}

theorem Reads.append (h : Reads names p s l q) (h' : Reads names q t l' r) :
    Reads names p (s ++ t) (l ++ l') r := by
  have hscan : scan p (s ++ t).toList =
      ((scan q t.toList).1, (scan p s.toList).2 ++ (scan q t.toList).2) := by
    rw [String.toList_append, scan_append, h.phase]
  refine ⟨?_, ?_, ?_⟩
  · rw [hscan]
    exact h'.phase
  · rw [hscan, List.all_append, h.within, h'.within]
    rfl
  · rw [hscan, links, List.filterMap_append]
    exact congrArg₂ _ h.linked h'.linked

theorem Reads.text (h : '<' ∉ s.toList) : Reads names .data s [] .data := by
  refine ⟨?_, ?_, ?_⟩ <;> rw [scan_text h]
  · rfl
  · rfl

theorem Reads.literal {ms : List Markup} (h : scan p cs = (q, ms))
    (hwithin : ms.all (Markup.within names) = true) (hlinked : links ms = l) :
    Reads names p (String.ofList cs) l q := by
  refine ⟨?_, ?_, ?_⟩ <;> rw [String.toList_ofList, h]
  · exact hwithin
  · exact hlinked

theorem Reads.silent (h : scan p cs = (q, [])) : Reads names p (String.ofList cs) [] q :=
  .literal h rfl rfl

theorem Reads.quoted (quote : Quote) (h : quote.char ∉ s.toList) (t : Tag)
    (name value : List Char) :
    Reads names (.quotedValue quote t name value) s []
      (.quotedValue quote t name (value ++ s.toList)) := by
  refine ⟨?_, ?_, ?_⟩ <;> rw [scan_quoted quote h]
  · rfl
  · rfl

end Reads

end HtmlMarkup
