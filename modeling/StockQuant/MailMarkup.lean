import StockQuant.AuthEffects
import StockQuant.HtmlMarkup
import StockQuant.MailTemplates

/-! What of a mail's markup comes from the name it greets. -/

namespace StockQuant

open HtmlMarkup

def Mail.link (settings : MailSettings) (mail : Mail) : String :=
  match mail.purpose with
  | .verifyEmail => settings.baseUrl ++ "/?verify=" ++ mail.raw
  | .passwordReset => settings.baseUrl ++ "/?reset=" ++ mail.raw

def Mail.markup (settings : MailSettings) (mail : Mail) : List Markup :=
  HtmlMarkup.markup (mail.message settings).html.toList

/-- A text that is read as it is written, between tags and in quotes. -/
def Quiet (s : String) : Prop := '<' ∉ s.toList ∧ '"' ∉ s.toList ∧ '\'' ∉ s.toList

instance (s : String) : Decidable (Quiet s) := inferInstanceAs (Decidable (_ ∧ _))

theorem Quiet.append {s t : String} (hs : Quiet s) (ht : Quiet t) : Quiet (s ++ t) := by
  simp only [Quiet, String.toList_append, List.mem_append, not_or]
  exact ⟨⟨hs.1, ht.1⟩, ⟨hs.2.1, ht.2.1⟩, hs.2.2, ht.2.2⟩

theorem quiet_literal {cs : List Char} (h : cs.all (· ∉ ['<', '"', '\'']) = true) :
    Quiet (String.ofList cs) := by
  have hmem : ∀ c ∈ cs, c ∉ ['<', '"', '\''] := by simpa [List.all_eq_true] using h
  unfold Quiet
  rw [String.toList_ofList]
  exact ⟨fun hc => hmem _ hc (by decide), fun hc => hmem _ hc (by decide),
    fun hc => hmem _ hc (by decide)⟩

theorem quiet_repr (n : Nat) : Quiet n.repr := by
  have hdigit : ∀ c ∈ n.repr.toList, c.isDigit := fun c hc =>
    Nat.isDigit_of_mem_toDigits (by decide) (by decide) (Nat.toList_repr ▸ hc)
  exact ⟨fun h => absurd (hdigit _ h) (by decide), fun h => absurd (hdigit _ h) (by decide),
    fun h => absurd (hdigit _ h) (by decide)⟩

theorem quiet_toString (n : Int) : Quiet (toString n) := by
  rw [Int.toString_eq_repr, Int.repr_eq_if]
  split_ifs
  · exact quiet_repr _
  · exact Quiet.append (by decide) (quiet_repr _)

def paragraph (text : String) : String := "<p style='margin:0 0 12px'>" ++ text ++ "</p>"

def wrapHead (heading : String) : String :=
  "<div style=\"font-family:system-ui,-apple-system,'Segoe UI',sans-serif;" ++
  "font-size:15px;line-height:1.6;color:#1f2937;max-width:520px\">" ++
  "<h2 style='margin:0 0 16px;font-size:19px'>" ++ heading ++ "</h2>" ++
  "<p style='margin:0 0 12px'>"

def wrapMiddle (more : List String) (link : String) : String :=
  "</p>" ++ String.join (more.map paragraph) ++ "<p style='margin:24px 0'><a href='" ++ link ++ "' "

def wrapFoot (buttonLabel link : String) : String :=
  "style=\"display:inline-block;background:#2563eb;color:#fff;" ++
  "padding:10px 20px;border-radius:6px;text-decoration:none\">" ++
  buttonLabel ++ "</a></p>" ++
  "<p style='margin:0 0 12px;color:#6b7280;font-size:13px'>" ++
  "若按鈕無法點擊，請複製以下連結到瀏覽器開啟：<br>" ++
  "<span style='word-break:break-all'>" ++ link ++ "</span></p>" ++
  "</div>"

theorem htmlWrap_eq (heading first : String) (more : List String) (buttonLabel link : String) :
    htmlWrap heading (first :: more) buttonLabel link =
      wrapHead heading ++ first ++ (wrapMiddle more link ++ wrapFoot buttonLabel link) := by
  unfold htmlWrap wrapHead wrapMiddle wrapFoot
  simp only [List.map_cons, String.join_cons, String.append_assoc]
  rfl

def ownNames : List (List Char) := [['s', 't', 'y', 'l', 'e'], ['h', 'r', 'e', 'f']]

section Template

set_option maxRecDepth 2000

theorem reads_paragraphOpen :
    Reads ownNames .data "<p style='margin:0 0 12px'>" [] .data := .literal rfl rfl rfl

theorem reads_paragraphClose : Reads ownNames .data "</p>" [] .data := .literal rfl rfl rfl

theorem reads_wrapHead {heading : String} (h : Quiet heading) :
    Reads ownNames .data (wrapHead heading) [] .data := by
  have hdiv : ∃ value, Reads ownNames .data
      "<div style=\"font-family:system-ui,-apple-system,'Segoe UI',sans-serif;" []
      (.quotedValue .double { name := ['d', 'i', 'v'] } ['s', 't', 'y', 'l', 'e'] value) :=
    ⟨_, .silent rfl⟩
  obtain ⟨value, hdiv⟩ := hdiv
  have hstyle : Reads ownNames
      (.quotedValue .double { name := ['d', 'i', 'v'] } ['s', 't', 'y', 'l', 'e'] value)
      "font-size:15px;line-height:1.6;color:#1f2937;max-width:520px\">" [] .data :=
    .literal rfl rfl rfl
  have hheading : Reads ownNames .data "<h2 style='margin:0 0 16px;font-size:19px'>" [] .data :=
    .literal rfl rfl rfl
  have hclose : Reads ownNames .data "</h2>" [] .data := .literal rfl rfl rfl
  exact ((((hdiv.append hstyle).append hheading).append (.text h.1)).append hclose).append
    reads_paragraphOpen

theorem reads_paragraphs {more : List String} (h : ∀ text ∈ more, Quiet text) :
    Reads ownNames .data (String.join (more.map paragraph)) [] .data := by
  induction more with
  | nil => exact .literal rfl rfl rfl
  | cons text more ih =>
    have htext : Quiet text := h text List.mem_cons_self
    rw [List.map_cons, String.join_cons]
    exact ((reads_paragraphOpen.append (.text htext.1)).append reads_paragraphClose).append
      (ih fun text' htext' => h text' (List.mem_cons_of_mem _ htext'))

/-- The service's own link is the one between the quotes. -/
theorem reads_wrapMiddle {more : List String} {link : String} (h : ∀ text ∈ more, Quiet text)
    (hlink : Quiet link) :
    Reads ownNames .data (wrapMiddle more link) []
      (.beforeAttributeName
        { name := ['a'], attributes := [(['h', 'r', 'e', 'f'], link.toList)] }) := by
  have hopen : Reads ownNames .data "<p style='margin:24px 0'><a href='" []
      (.quotedValue .single { name := ['a'] } ['h', 'r', 'e', 'f'] []) :=
    .literal rfl rfl rfl
  have hquoted : Reads ownNames (.quotedValue .single { name := ['a'] } ['h', 'r', 'e', 'f'] [])
      link [] (.quotedValue .single { name := ['a'] } ['h', 'r', 'e', 'f'] link.toList) :=
    .quoted .single hlink.2.2 _ _ _
  have hafter : Reads ownNames
      (.quotedValue .single { name := ['a'] } ['h', 'r', 'e', 'f'] link.toList) "' " []
      (.beforeAttributeName
        { name := ['a'], attributes := [(['h', 'r', 'e', 'f'], link.toList)] }) :=
    .literal rfl rfl rfl
  exact (((reads_paragraphClose.append (reads_paragraphs h)).append hopen).append hquoted).append
    hafter

theorem reads_wrapFoot {buttonLabel link : String} (hlabel : Quiet buttonLabel)
    (hlink : Quiet link) :
    Reads ownNames (.beforeAttributeName
        { name := ['a'], attributes := [(['h', 'r', 'e', 'f'], link.toList)] })
      (wrapFoot buttonLabel link) [link.toList] .data := by
  have hstyle : ∃ value, Reads ownNames (.beforeAttributeName
        { name := ['a'], attributes := [(['h', 'r', 'e', 'f'], link.toList)] })
      "style=\"display:inline-block;background:#2563eb;color:#fff;" []
      (.quotedValue .double { name := ['a'], attributes := [(['h', 'r', 'e', 'f'], link.toList)] }
        ['s', 't', 'y', 'l', 'e'] value) := ⟨_, .silent rfl⟩
  obtain ⟨value, hstyle⟩ := hstyle
  have hbutton : Reads ownNames
      (.quotedValue .double { name := ['a'], attributes := [(['h', 'r', 'e', 'f'], link.toList)] }
        ['s', 't', 'y', 'l', 'e'] value)
      "padding:10px 20px;border-radius:6px;text-decoration:none\">" [link.toList] .data :=
    .literal rfl rfl rfl
  have hclose : Reads ownNames .data "</a></p>" [] .data := .literal rfl rfl rfl
  have hnote : Reads ownNames .data "<p style='margin:0 0 12px;color:#6b7280;font-size:13px'>" []
      .data := .literal rfl rfl rfl
  have hbreak : Reads ownNames .data "若按鈕無法點擊，請複製以下連結到瀏覽器開啟：<br>" [] .data :=
    .literal rfl rfl rfl
  have hspan : Reads ownNames .data "<span style='word-break:break-all'>" [] .data :=
    .literal rfl rfl rfl
  have hspanEnd : Reads ownNames .data "</span></p>" [] .data := .literal rfl rfl rfl
  have hend : Reads ownNames .data "</div>" [] .data := .literal rfl rfl rfl
  exact ((((((((hstyle.append hbutton).append (.text hlabel.1)).append hclose).append hnote).append
    hbreak).append hspan).append (.text hlink.1)).append hspanEnd).append hend

-- A name that opens markup leaves the reader in it, and the template then adds to a tag an
-- attribute that no tag of its own has.
theorem scan_literal {p : Phase} {cs : List Char} {r : Phase × List Markup} (h : scan p cs = r) :
    scan p (String.ofList cs).toList = r := by
  rwa [String.toList_ofList]

def Strays (p : Phase) (s : String) : Prop :=
  ∃ m ∈ markupFrom p s.toList, m.within ownNames = false

theorem strays_of_has {p q : Phase} {s t : String} {tag : Tag} {name : List Char}
    (h : scan p s.toList = (q, [.tag tag])) (hhas : tag.Has name) (hname : name ∉ ownNames) :
    Strays p (s ++ t) := by
  refine ⟨.tag tag, ?_, within_of_has hhas hname⟩
  rw [String.toList_append, markupFrom_append, h]
  exact List.mem_append_left _ List.mem_cons_self

theorem strays_append {p q : Phase} {s t : String} (h : scan p s.toList = (q, []))
    (ht : Strays q t) : Strays p (s ++ t) := by
  obtain ⟨m, hm, hwithin⟩ := ht
  refine ⟨m, ?_, hwithin⟩
  rw [String.toList_append, markupFrom_append, h]
  exact hm

theorem strays_single (t : Tag) (name value : List Char) (rest : String) :
    Strays (.quotedValue .single t name value) ("<p style='margin:0 0 12px'>" ++ rest) := by
  obtain ⟨tag, hscan, hhas⟩ : ∃ tag, scan (.quotedValue .single t name value)
      "<p style='margin:0 0 12px'>".toList = (.data, [.tag tag]) ∧
        tag.Has "margin:0".toList := by
    refine ⟨_, scan_literal rfl, ?_⟩
    simp only [has_add]
    exact Or.inr (Or.inr (Or.inl (by decide +kernel)))
  exact strays_of_has hscan hhas (by decide +kernel)

theorem strays_double (t : Tag) (name value : List Char) (buttonLabel link : String) :
    Strays (.quotedValue .double t name value) (wrapFoot buttonLabel link) := by
  obtain ⟨t', name', hfirst⟩ : ∃ t' name', scan (.quotedValue .double t name value)
      "style=\"display:inline-block;background:#2563eb;color:#fff;".toList =
        (.attributeName t' name', []) := ⟨_, _, scan_literal rfl⟩
  obtain ⟨tag, hsecond, hhas⟩ : ∃ tag, scan (.attributeName t' name')
      "padding:10px 20px;border-radius:6px;text-decoration:none\">".toList =
        (.data, [.tag tag]) ∧
          tag.Has "20px;border-radius:6px;text-decoration:none\"".toList := by
    refine ⟨_, scan_literal rfl, ?_⟩
    simp only [has_add]
    exact Or.inl (by decide +kernel)
  unfold wrapFoot
  simp only [String.append_assoc]
  exact strays_append hfirst (strays_of_has hsecond hhas (by decide +kernel))

theorem strays_close {t : Tag} {name : List Char} (h : t.Has "stock".toList) (rest : String) :
    Strays (.attributeName t name) ("</p>" ++ rest) := by
  obtain ⟨tag, hscan, hhas⟩ : ∃ tag, scan (.attributeName t name) "</p>".toList =
      (.data, [.tag tag]) ∧ tag.Has "stock".toList := by
    refine ⟨_, scan_literal rfl, ?_⟩
    simp only [has_add]
    exact Or.inr (Or.inr h)
  exact strays_of_has hscan hhas (by decide +kernel)

/-- What the two messages say differently. -/
structure Wording where
  heading : String
  intro : String
  second : String
  third : String
  buttonLabel : String

def Mail.wording (settings : MailSettings) (mail : Mail) : Wording :=
  match mail.purpose with
  | .verifyEmail =>
    { heading := "請驗證你的信箱"
      intro := "感謝註冊 Stock Quant。"
      second := "請點擊下方按鈕完成信箱驗證。這個連結在 " ++
        toString (max 1 (settings.emailVerifyTtlMinutes / 60)) ++ " 小時後失效。"
      third := "如果你沒有註冊過這個服務，請直接忽略這封信。"
      buttonLabel := "驗證信箱" }
  | .passwordReset =>
    { heading := "重設你的密碼"
      intro := "我們收到了重設 Stock Quant 密碼的請求。"
      second := "請點擊下方按鈕設定新密碼。連結在 " ++ toString settings.passwordResetTtlMinutes ++
        " 分鐘後失效，且只能使用一次。"
      third := "如果不是你本人操作，請忽略這封信——你的密碼不會有任何變動。"
      buttonLabel := "設定新密碼" }

structure Wording.Quiet (w : Wording) : Prop where
  heading : StockQuant.Quiet w.heading
  intro : StockQuant.Quiet w.intro
  second : StockQuant.Quiet w.second
  third : StockQuant.Quiet w.third
  buttonLabel : StockQuant.Quiet w.buttonLabel

theorem wording_quiet (settings : MailSettings) (mail : Mail) : (mail.wording settings).Quiet := by
  unfold Mail.wording
  cases mail.purpose with
  | verifyEmail | passwordReset =>
    exact
      { heading := quiet_literal (by decide +kernel)
        intro := quiet_literal (by decide +kernel)
        second := ((quiet_literal (by decide +kernel)).append (quiet_toString _)).append
          (quiet_literal (by decide +kernel))
        third := quiet_literal (by decide +kernel)
        buttonLabel := quiet_literal (by decide +kernel) }

theorem Wording.Quiet.more {w : Wording} (h : w.Quiet) :
    ∀ text ∈ [w.second, w.third], StockQuant.Quiet text := by
  simp only [List.forall_mem_cons, List.not_mem_nil, false_implies, implies_true, and_true]
  exact ⟨h.second, h.third⟩

/-- The HTML of a message after the name and the comma. -/
def Wording.rest (w : Wording) (link : String) : String :=
  w.intro ++ (wrapMiddle [w.second, w.third] link ++ wrapFoot w.buttonLabel link)

theorem message_html (settings : MailSettings) (mail : Mail) :
    (mail.message settings).html =
      wrapHead (mail.wording settings).heading ++ (greeted mail.displayName ++ "，") ++
        (mail.wording settings).rest (mail.link settings) := by
  have hverify : "，感謝註冊 Stock Quant。" = "，" ++ "感謝註冊 Stock Quant。" := by decide +kernel
  have hreset : "，我們收到了重設 Stock Quant 密碼的請求。" =
      "，" ++ "我們收到了重設 Stock Quant 密碼的請求。" := by decide +kernel
  unfold Mail.message Mail.wording Mail.link Wording.rest
  cases mail.purpose with
  | verifyEmail =>
    simp only [verifyEmailMessage, htmlWrap_eq, hverify, String.append_assoc]
  | passwordReset =>
    simp only [passwordResetMessage, htmlWrap_eq, hreset, String.append_assoc]

theorem message_toList (settings : MailSettings) (mail : Mail) :
    (mail.message settings).html.toList =
      (wrapHead (mail.wording settings).heading).toList ++
        ((greeted mail.displayName).toList ++ ['，']) ++
          ((mail.wording settings).rest (mail.link settings)).toList := by
  have hcomma : "，".toList = ['，'] := String.toList_ofList
  rw [message_html, String.toList_append, String.toList_append, String.toList_append, hcomma]

/-- The name of the service is an attribute of the tag that the reader is in. -/
theorem scan_intro {p : Phase} (h : p.InWord) (settings : MailSettings) (mail : Mail) :
    ∃ t name, scan p (mail.wording settings).intro.toList = (.attributeName t name, []) ∧
      t.Has "stock".toList := by
  unfold Mail.wording
  cases mail.purpose with
  | verifyEmail =>
    cases p with
    | tagName | attributeName | unquotedValue =>
      refine ⟨_, _, scan_literal rfl, ?_⟩
      simp only [has_add]
      exact Or.inl (by decide +kernel)
    | _ => exact absurd h id
  | passwordReset =>
    cases p with
    | tagName | attributeName | unquotedValue =>
      refine ⟨_, _, scan_literal rfl, ?_⟩
      simp only [has_add]
      exact Or.inr (Or.inl (by decide +kernel))
    | _ => exact absurd h id

theorem wrapMiddle_cons (text : String) (more : List String) (link : String) :
    wrapMiddle (text :: more) link =
      "</p>" ++ ("<p style='margin:0 0 12px'>" ++ (text ++ wrapMiddle more link)) := by
  unfold wrapMiddle
  rw [List.map_cons, String.join_cons]
  unfold paragraph
  simp only [String.append_assoc]

theorem not_mem_wrapMiddle {more : List String} {link : String} (h : ∀ text ∈ more, Quiet text)
    (hlink : Quiet link) : '"' ∉ (wrapMiddle more link).toList := by
  have hopen : '"' ∉ "<p style='margin:0 0 12px'>".toList := by decide +kernel
  have hclose : '"' ∉ "</p>".toList := by decide +kernel
  have hlinkOpen : '"' ∉ "<p style='margin:24px 0'><a href='".toList := by decide +kernel
  have hlinkClose : '"' ∉ "' ".toList := by decide +kernel
  have hparagraphs : '"' ∉ (String.join (more.map paragraph)).toList := by
    rw [String.toList_join, List.mem_flatMap]
    rintro ⟨p, hp, hmem⟩
    obtain ⟨text, htext, rfl⟩ := List.mem_map.mp hp
    unfold paragraph at hmem
    rw [String.toList_append, String.toList_append, List.mem_append, List.mem_append] at hmem
    exact hmem.elim (fun h' => h'.elim hopen (h text htext).2.1) hclose
  unfold wrapMiddle
  simp only [String.toList_append, List.mem_append, not_or, -String.reduceToList]
  exact ⟨⟨⟨⟨hclose, hparagraphs⟩, hlinkOpen⟩, hlink.2.1⟩, hlinkClose⟩

variable {settings : MailSettings} {mail : Mail}

/-- Wherever in markup the comma finds the reader, the rest has some that is not the
template's. -/
theorem strays_rest (hlink : Quiet (mail.link settings)) {p : Phase}
    (hp : p.atEnd ≠ none ∨ p.InWord ∨
      ∃ quote t name value, p = .quotedValue quote t name value) :
    Strays p ((mail.wording settings).rest (mail.link settings)) := by
  have hwords := wording_quiet settings mail
  unfold Wording.rest
  rcases hp with hcomment | hword | ⟨quote, t, name, value, rfl⟩
  · obtain ⟨text, htext⟩ := comment_mem_markupFrom hcomment _
    exact ⟨_, htext, rfl⟩
  · obtain ⟨t, name, hscan, hhas⟩ := scan_intro hword settings mail
    refine strays_append hscan ?_
    unfold wrapMiddle
    simp only [String.append_assoc]
    exact strays_close hhas _
  · cases quote with
    | single =>
      refine strays_append (scan_quoted .single hwords.intro.2.2 t name value) ?_
      have hclose : '\'' ∉ "</p>".toList := by decide +kernel
      rw [wrapMiddle_cons, String.append_assoc, String.append_assoc]
      exact strays_append (scan_quoted .single hclose _ _ _) (strays_single _ _ _ _)
    | double =>
      refine strays_append (scan_quoted .double hwords.intro.2.1 t name value) ?_
      exact strays_append (scan_quoted .double (not_mem_wrapMiddle hwords.more hlink) _ _ _)
        (strays_double _ _ _ _ _)

theorem reads_rest (hlink : Quiet (mail.link settings)) :
    Reads ownNames .data ((mail.wording settings).rest (mail.link settings))
      [(mail.link settings).toList] .data := by
  have hwords := wording_quiet settings mail
  exact (Reads.text hwords.intro.1).append
    ((reads_wrapMiddle hwords.more hlink).append (reads_wrapFoot hwords.buttonLabel hlink))

end Template

theorem isSpace_opens {c : Char} (h : isSpace c) :
    c.isAlpha = false ∧ c ∉ ['<', '>', '/', '!', '?'] := by
  have hrange : c.toNat ≤ 32 ∨ 133 ≤ c.toNat := by
    simp only [isSpace, List.mem_cons, List.not_mem_nil, Bool.or_eq_true, Bool.and_eq_true,
      decide_eq_true_eq, or_false] at h
    omega
  refine ⟨?_, ?_⟩
  · rw [Bool.eq_false_iff]
    intro halpha
    rcases Bool.or_eq_true_iff.mp (show (c.isUpper || c.isLower) = true from halpha) with h | h
    · have hupper : 65 ≤ c.toNat ∧ c.toNat ≤ 90 := of_decide_eq_true h
      omega
    · have hlower : 97 ≤ c.toNat ∧ c.toNat ≤ 122 :=
        (Bool.and_eq_true_iff.mp h).imp of_decide_eq_true of_decide_eq_true
      omega
  · intro hmem
    simp only [List.mem_cons, List.not_mem_nil, or_false] at hmem
    rcases hmem with rfl | rfl | rfl | rfl | rfl <;> simp at hrange

theorem opensMarkup_strip (s : String) :
    opensMarkup (strip s).toList = opensMarkup s.toList := by
  have hleft : ∀ c, isSpace c → c ≠ '<' := by
    rintro c hc rfl
    exact (isSpace_opens hc).2 List.mem_cons_self
  unfold strip
  rw [String.toList_ofList, opensMarkup_rdropWhile fun c hc => isSpace_opens hc,
    opensMarkup_dropWhile hleft]

theorem opensMarkup_greeted (displayName : Option String) :
    opensMarkup (greeted displayName).toList = opensMarkup (displayName.getD "").toList := by
  have hstrip := opensMarkup_strip (displayName.getD "")
  unfold greeted
  dsimp only
  split_ifs with hempty
  · rw [← hstrip, hempty]
    exact opensMarkup_text (quiet_literal (by decide +kernel)).1
  · exact hstrip

section Unmarked

variable {settings : MailSettings} {mail : Mail}

/-- The name leaves the markup of the mail as it is without a name. -/
def Unmarked (settings : MailSettings) (mail : Mail) : Prop :=
  mail.markup settings = Mail.markup settings { mail with displayName := none }

theorem plain_comma : plain '，' := by decide

theorem markup_of_clean (settings : MailSettings) {mail : Mail}
    (h : opensMarkup (mail.displayName.getD "").toList = false) :
    mail.markup settings =
      (scan .data (wrapHead (mail.wording settings).heading).toList).2 ++
        markupFrom .data ((mail.wording settings).rest (mail.link settings)).toList := by
  have hhead := reads_wrapHead (wording_quiet settings mail).heading
  rw [Mail.markup, message_toList]
  exact markup_inert hhead.phase plain_comma ((opensMarkup_greeted _).trans h)

theorem markup_without_name (settings : MailSettings) (mail : Mail) :
    Mail.markup settings { mail with displayName := none } =
      (scan .data (wrapHead (mail.wording settings).heading).toList).2 ++
        markupFrom .data ((mail.wording settings).rest (mail.link settings)).toList :=
  markup_of_clean settings (show opensMarkup "".toList = false by decide +kernel)

theorem unmarked_of_clean (h : opensMarkup (mail.displayName.getD "").toList = false) :
    Unmarked settings mail := by
  have hnone := markup_without_name settings mail
  exact (markup_of_clean settings h).trans hnone.symm

theorem within_rest (hlink : Quiet (mail.link settings)) :
    (markupFrom .data ((mail.wording settings).rest (mail.link settings)).toList).all
      (Markup.within ownNames) = true := by
  have hrest := reads_rest hlink
  rw [markupFrom, hrest.phase, List.all_append, hrest.within]
  rfl

theorem unmarked_iff (hlink : Quiet (mail.link settings)) :
    Unmarked settings mail ↔ opensMarkup (mail.displayName.getD "").toList = false := by
  refine ⟨fun h => ?_, unmarked_of_clean⟩
  rw [← opensMarkup_greeted, ← Bool.not_eq_true]
  intro hopens
  have hhead := reads_wrapHead (wording_quiet settings mail).heading
  have hname := scan_markup plain_comma hopens
  have hsame : (scan .data ((greeted mail.displayName).toList ++ ['，'])).2 ++
      markupFrom (scan .data ((greeted mail.displayName).toList ++ ['，'])).1
        ((mail.wording settings).rest (mail.link settings)).toList =
      markupFrom .data ((mail.wording settings).rest (mail.link settings)).toList := by
    have h := h.trans (markup_without_name settings mail)
    rw [Mail.markup, message_toList, List.append_assoc, markup, markupFrom_append, hhead.phase,
      markupFrom_append] at h
    exact List.append_cancel_left h
  have hafter := step_plain plain_comma (scan .data (greeted mail.displayName).toList).1
  rw [← scan_last] at hafter
  generalize scan .data ((greeted mail.displayName).toList ++ ['，']) = reached at *
  rcases hafter with hdata | hinside
  · -- The name has some markup of its own, and all of the template's follows.
    have hsome : reached.2 ≠ [] := hname.resolve_left fun hinside => hinside (hdata ▸ trivial)
    rw [hdata] at hsame
    exact hsome (List.append_left_eq_self.mp hsame)
  · obtain ⟨m, hm, hwithin⟩ := strays_rest hlink hinside
    have hown := List.all_eq_true.mp (within_rest hlink) m (hsame ▸ List.mem_append_right _ hm)
    rw [hwithin] at hown
    cases hown

theorem reads_clean (h : opensMarkup (mail.displayName.getD "").toList = false) :
    Reads ownNames .data (greeted mail.displayName ++ "，") [] .data := by
  have hcomma : "，".toList = ['，'] := String.toList_ofList
  have hscan : scan .data (greeted mail.displayName ++ "，").toList = (.data, []) := by
    rw [String.toList_append, hcomma]
    exact scan_inert plain_comma ((opensMarkup_greeted _).trans h)
  refine ⟨?_, ?_, ?_⟩ <;> rw [hscan]
  · rfl
  · rfl

theorem links_of_reads {linked : List (List Char)}
    (hname : Reads ownNames .data (greeted mail.displayName ++ "，") linked .data)
    (hlink : Quiet (mail.link settings)) :
    links (mail.markup settings) = linked ++ [(mail.link settings).toList] := by
  have hhead := reads_wrapHead (wording_quiet settings mail).heading
  have hhtml := (hhead.append hname).append (reads_rest hlink)
  rw [← message_html] at hhtml
  rw [Mail.markup, markup, markupFrom, hhtml.phase]
  simpa [Phase.atEnd] using hhtml.linked

theorem register_mails {Tok : Type} {env : Env Tok} {ctx : Context} {app app' : App}
    {body : RegisterRequest} {response : AuthResponse Tok} {mails : List Mail}
    (h : register env ctx body app = (app', .ok (response, mails))) :
    ∀ mail ∈ mails, mail.displayName = body.displayName := by
  unfold register at h
  split at h
  · cases h
  · dsimp only at h
    split_ifs at h
    · cases h
    · split at h
      · cases h
      · split at h
        · cases h
        · next user db₁ hcreate =>
          split at h
          · cases h
          · next db₂ mail hissue =>
            cases h
            intro mail hmail
            obtain rfl := List.mem_singleton.mp hmail
            unfold issueVerificationEmail at hissue
            rw [issueEmailToken_mail hissue, createUser_user hcreate]

/-- A registration may mail the name that came with it. -/
theorem registered_unmarked_iff {Tok : Type} {env : Env Tok} {ctx : Context} {app app' : App}
    {body : RegisterRequest} {response : AuthResponse Tok} {mails : List Mail}
    (h : register env ctx body app = (app', .ok (response, mails))) (hmail : mail ∈ mails)
    (hlink : Quiet (mail.link settings)) :
    Unmarked settings mail ↔ opensMarkup (body.displayName.getD "").toList = false := by
  rw [unmarked_iff hlink, register_mails h mail hmail]

/-- The mails leave a name as text if and only if no `<` in it is followed by a letter, a `!`, a
`?`, or a `/` that no `>` follows. Their only link is then the service's own. -/
theorem mails_unmarked_iff (displayName : Option String) :
    ((∀ (settings : MailSettings) (mail : Mail), Unmarked settings { mail with displayName }) ↔
      opensMarkup (displayName.getD "").toList = false) ∧
    ∀ (settings : MailSettings) (mail : Mail), Quiet (mail.link settings) →
      (Unmarked settings { mail with displayName } ↔
        opensMarkup (displayName.getD "").toList = false) ∧
      (Unmarked settings { mail with displayName } →
        links (Mail.markup settings { mail with displayName }) = [(mail.link settings).toList]) := by
  refine ⟨⟨fun h => ?_, fun h settings mail => unmarked_of_clean h⟩, fun settings mail hlink => ?_⟩
  · have hquiet : Quiet (MailSettings.baseUrl {} ++ "/?verify=" ++ "") := by decide +kernel
    have hiff : Unmarked {} { recipient := "", purpose := .verifyEmail, raw := "", displayName } ↔
        opensMarkup (displayName.getD "").toList = false := unmarked_iff hquiet
    exact hiff.mp (h {} { recipient := "", purpose := .verifyEmail, raw := "", displayName })
  · have hiff : Unmarked settings { mail with displayName } ↔
        opensMarkup (displayName.getD "").toList = false := unmarked_iff hlink
    exact ⟨hiff, fun h => links_of_reads (reads_clean (hiff.mp h)) hlink⟩

/-- A name with a link of its own. -/
def linkedName : Mail where
  recipient := "owner@example.com"
  purpose := .verifyEmail
  raw := "token"
  displayName := some "<a href='https://example.net'>Stock Quant</a>"

theorem linkedName_marked :
    (links (linkedName.markup {})).map String.ofList =
        ["https://example.net", "http://localhost:5173/?verify=token"] ∧
      (links (Mail.markup {} { linkedName with displayName := none })).map String.ofList =
        ["http://localhost:5173/?verify=token"] ∧
      ¬Unmarked {} linkedName := by
  have hquiet : Quiet (linkedName.link {}) := by decide +kernel
  have hlink : linkedName.link {} = "http://localhost:5173/?verify=token" := by decide +kernel
  have hgreeted : greeted linkedName.displayName =
      "<a href='https://example.net'>Stock Quant</a>" := by decide +kernel
  obtain ⟨linked, hname, hlinked⟩ : ∃ linked, Reads ownNames .data
      (greeted linkedName.displayName ++ "，") linked .data ∧
        linked.map String.ofList = ["https://example.net"] := by
    rw [hgreeted]
    exact ⟨_, (Reads.literal rfl rfl rfl).append (.literal rfl rfl rfl), rfl⟩
  refine ⟨?_, ?_, fun h => ?_⟩
  · rw [links_of_reads hname hquiet, List.map_append, hlinked, hlink]
    simp
  · have hnone : links (Mail.markup {} { linkedName with displayName := none }) = _ :=
      links_of_reads (reads_clean (show opensMarkup "".toList = false by decide +kernel)) hquiet
    have hlink' : Mail.link {} { linkedName with displayName := none } =
        "http://localhost:5173/?verify=token" := hlink
    rw [hnone, hlink']
    simp
  · have hclean := (unmarked_iff hquiet).mp h
    exact absurd hclean (by decide +kernel)

end Unmarked

end StockQuant
