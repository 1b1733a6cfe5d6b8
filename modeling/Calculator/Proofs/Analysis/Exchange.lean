import Calculator.Proofs.Analysis.Fence
import Calculator.Proofs.Json.Record

/-!
# `Proofs.Analysis.Exchange` — what is asked, and what comes of the reply

A reply is looked at in six stages: there is a response, its status is one of success, its body can be read,
something is said in it, what is said can be read in turn, and the explanation in that is not empty. `Answers`
asks for all of them. `Fails` names the one that is missing, and asks for all before it; so no error can stand
for another one that came first. Between them they leave no reply out, and each decides the outcome.

## Contents

* `Status.Accepted`, `Reply.Reads`, `Reply.Says`, `Reply.Explains` — the stages
* `Reply.Answers`, `Reply.Fails` — all of them, or the first that is missing
* `Reply.answers_or_fails`, `Reply.ofReply_eq_ok_iff`, `Reply.ofReply_eq_error_iff` — they decide the outcome
* `prompts?`, `prompts?_request` — the question
* `Reply.bodySaying`, `Reply.reads_bodySaying` — the body of a response in which a text is said
* `exchange_decided` — question and outcome together
-/

namespace Calculator

/-! ## Stages -/

/-- A status of success. -/
def Status.Accepted (status : Nat) : Prop := 200 ≤ status ∧ status ≤ 299

namespace Reply

/-- The candidates in the body of a response, each by the texts of its parts. -/
def Reads (body : String) (candidates : List (List String)) : Prop :=
  ∃ json, Json.parse? body.toList = some json ∧ candidates? json = some candidates

/-- The first part of the first candidate has a text, and it is not blank. -/
def Says (candidates : List (List String)) (text : String) : Prop :=
  ∃ parts others, candidates = (text :: parts) :: others ∧ ∃ c ∈ text.toList, Text.isBlank c = false

/-- What is left of a text without the fence around it is a document, and the explanation is what it says. -/
def Explains (text : String) (analysis : Analysis) : Prop :=
  ∃ document json, Unfenced text.toList document ∧ Json.parse? document = some json ∧
    Analysis.ofJson? json = some analysis

/-- **A reply with an explanation**: it is `Accepted`, it `Reads`, `Says` and `Explains`, and the explanation
is not empty. -/
inductive Answers : Reply → Analysis → Prop
  | response {status : Nat} {body text : String} {candidates : List (List String)} {analysis : Analysis}
      (accepted : Status.Accepted status) (reads : Reads body candidates) (said : Says candidates text)
      (explains : Explains text analysis) (full : analysis.explanation ≠ "" ∨ analysis.steps ≠ []) :
      Answers (.response status body) analysis

/-- **A reply without an explanation**: every case asks for the stages before the one that is missing. -/
inductive Fails : Reply → AnalysisError → Prop
  | transport (reason : String) : Fails (.failure reason) (.transport reason)
  | refused {status : Nat} (body : String) (h : ¬Status.Accepted status) :
      Fails (.response status body) (.refused status body)
  | unreadableBody {status : Nat} {body : String} (accepted : Status.Accepted status)
      (unread : ∀ candidates, ¬Reads body candidates) : Fails (.response status body) .unreadable
  | noCandidates {status : Nat} {body : String} (accepted : Status.Accepted status) (reads : Reads body []) :
      Fails (.response status body) .noCandidates
  | noText {status : Nat} {body : String} {first : List String} {others : List (List String)}
      (accepted : Status.Accepted status) (reads : Reads body (first :: others))
      (silent : ∀ text, ¬Says (first :: others) text) : Fails (.response status body) .noText
  | unreadableText {status : Nat} {body text : String} {candidates : List (List String)}
      (accepted : Status.Accepted status) (reads : Reads body candidates) (said : Says candidates text)
      (unread : ∀ analysis, ¬Explains text analysis) : Fails (.response status body) .unreadable
  | nothingSaid {status : Nat} {body text : String} {candidates : List (List String)} {analysis : Analysis}
      (accepted : Status.Accepted status) (reads : Reads body candidates) (said : Says candidates text)
      (explains : Explains text analysis) (empty : analysis.explanation = "" ∧ analysis.steps = []) :
      Fails (.response status body) .nothingSaid

section

variable {status : Nat} {body text : String} {candidates : List (List String)} {analysis : Analysis}
  {reply : Reply} {e : AnalysisError}

theorem isSuccess_iff : Status.isSuccess status = true ↔ Status.Accepted status := by
  unfold Status.isSuccess Status.Accepted
  rw [Bool.and_eq_true_iff, decide_eq_true_iff, decide_eq_true_iff, Nat.lt_succ_iff]

theorem reads_iff : Reads body candidates ↔ (Json.parse? body.toList).bind candidates? = some candidates :=
  Option.bind_eq_some_iff.symm

theorem explains_iff :
    Explains text analysis ↔ (Json.parse? (unfence text.toList)).bind Analysis.ofJson? = some analysis := by
  rw [Option.bind_eq_some_iff]
  constructor
  · rintro ⟨document, json, hdocument, hread⟩
    rw [hdocument.unfence_eq]
    exact ⟨json, hread⟩
  · rintro ⟨json, hread⟩
    exact ⟨_, json, unfenced_iff.mpr rfl, hread⟩

theorem isEmpty_iff : analysis.isEmpty = true ↔ analysis.explanation = "" ∧ analysis.steps = [] := by
  unfold Analysis.isEmpty
  rw [Bool.and_eq_true_iff, String.isEmpty_iff, List.isEmpty_iff]

/-- A text is blank or it has something in it. -/
theorem all_isBlank_eq_false_iff :
    text.toList.all Text.isBlank = false ↔ ∃ c ∈ text.toList, Text.isBlank c = false := by
  rw [List.all_eq_false]
  simp only [Bool.not_eq_true]

/-! ## What the stages give -/

theorem firstText_of_said (h : Says candidates text) : firstText candidates = .ok text := by
  obtain ⟨parts, others, rfl, hvisible⟩ := h
  rw [firstText, all_isBlank_eq_false_iff.mpr hvisible]
  rfl

theorem firstText_of_silent {first : List String} {others : List (List String)}
    (h : ∀ text, ¬Says (first :: others) text) : firstText (first :: others) = .error .noText := by
  cases first with
  | nil => rfl
  | cons text parts =>
      have hblank : text.toList.all Text.isBlank = true := by
        rw [← Bool.not_eq_false]
        exact fun hvisible => h text ⟨parts, others, rfl, all_isBlank_eq_false_iff.mp hvisible⟩
      rw [firstText, if_pos hblank]

theorem answerText_of_reads (h : Reads body candidates) : answerText body = firstText candidates := by
  unfold answerText
  rw [reads_iff.mp h]

theorem answerText_of_unread (h : ∀ candidates, ¬Reads body candidates) :
    answerText body = .error .unreadable := by
  have hnone : (Json.parse? body.toList).bind candidates? = none :=
    Option.eq_none_iff_forall_ne_some.mpr fun candidates hread => h candidates (reads_iff.mpr hread)
  unfold answerText
  rw [hnone]

theorem ofText_of_explains (h : Explains text analysis) :
    Analysis.ofText text = if analysis.isEmpty then .error .nothingSaid else .ok analysis := by
  unfold Analysis.ofText
  rw [explains_iff.mp h]

theorem ofText_of_unread (h : ∀ analysis, ¬Explains text analysis) :
    Analysis.ofText text = .error .unreadable := by
  have hnone : (Json.parse? (unfence text.toList)).bind Analysis.ofJson? = none :=
    Option.eq_none_iff_forall_ne_some.mpr fun analysis hread => h analysis (explains_iff.mpr hread)
  unfold Analysis.ofText
  rw [hnone]

theorem ofReply_of_accepted (h : Status.Accepted status) :
    Analysis.ofReply (.response status body) = Analysis.ofBody body :=
  if_pos (isSuccess_iff.mpr h)

theorem ofReply_of_said (accepted : Status.Accepted status) (reads : Reads body candidates)
    (said : Says candidates text) : Analysis.ofReply (.response status body) = Analysis.ofText text := by
  rw [ofReply_of_accepted accepted, Analysis.ofBody, answerText_of_reads reads, firstText_of_said said]

/-! ## The outcome -/

theorem Answers.ofReply (h : Answers reply analysis) : Analysis.ofReply reply = .ok analysis := by
  cases h with
  | response accepted reads said explains full =>
      have hfull : ¬analysis.isEmpty = true := fun hempty =>
        full.elim (· (isEmpty_iff.mp hempty).1) (· (isEmpty_iff.mp hempty).2)
      rw [ofReply_of_said accepted reads said, ofText_of_explains explains, if_neg hfull]

theorem Fails.ofReply (h : Fails reply e) : Analysis.ofReply reply = .error e := by
  cases h with
  | transport reason => rfl
  | refused body h => exact if_neg fun hsuccess => h (isSuccess_iff.mp hsuccess)
  | unreadableBody accepted unread =>
      rw [ofReply_of_accepted accepted, Analysis.ofBody, answerText_of_unread unread]
  | noCandidates accepted reads =>
      rw [ofReply_of_accepted accepted, Analysis.ofBody, answerText_of_reads reads]
      rfl
  | noText accepted reads silent =>
      rw [ofReply_of_accepted accepted, Analysis.ofBody, answerText_of_reads reads,
        firstText_of_silent silent]
  | unreadableText accepted reads said unread =>
      rw [ofReply_of_said accepted reads said, ofText_of_unread unread]
  | nothingSaid accepted reads said explains empty =>
      rw [ofReply_of_said accepted reads said, ofText_of_explains explains,
        if_pos (isEmpty_iff.mpr empty)]

/-- **No reply is left out** by `Answers` and `Fails`: one stage after the other is there, or it is the first
missing. -/
theorem answers_or_fails (reply : Reply) : (∃ analysis, Answers reply analysis) ∨ ∃ e, Fails reply e := by
  cases reply with
  | failure reason => exact .inr ⟨_, .transport reason⟩
  | response status body =>
      by_cases accepted : Status.Accepted status
      case neg => exact .inr ⟨_, .refused body accepted⟩
      by_cases hread : ∃ candidates, Reads body candidates
      case neg => exact .inr ⟨_, .unreadableBody accepted (not_exists.mp hread)⟩
      obtain ⟨candidates, reads⟩ := hread
      by_cases hsaid : ∃ text, Says candidates text
      case neg =>
        cases candidates with
        | nil => exact .inr ⟨_, .noCandidates accepted reads⟩
        | cons first others => exact .inr ⟨_, .noText accepted reads (not_exists.mp hsaid)⟩
      obtain ⟨text, said⟩ := hsaid
      by_cases hexplained : ∃ analysis, Explains text analysis
      case neg => exact .inr ⟨_, .unreadableText accepted reads said (not_exists.mp hexplained)⟩
      obtain ⟨analysis, explains⟩ := hexplained
      by_cases empty : analysis.explanation = "" ∧ analysis.steps = []
      · exact .inr ⟨_, .nothingSaid accepted reads said explains empty⟩
      · exact .inl ⟨analysis, .response accepted reads said explains (not_and_or.mp empty)⟩

theorem ofReply_eq_ok_iff : Analysis.ofReply reply = .ok analysis ↔ Answers reply analysis := by
  refine ⟨fun h => ?_, Answers.ofReply⟩
  rcases answers_or_fails reply with ⟨other, hanswers⟩ | ⟨e, hfails⟩
  · obtain rfl : other = analysis := Except.ok.inj (hanswers.ofReply.symm.trans h)
    exact hanswers
  · exact absurd (hfails.ofReply.symm.trans h) (by simp)

theorem ofReply_eq_error_iff : Analysis.ofReply reply = .error e ↔ Fails reply e := by
  refine ⟨fun h => ?_, Fails.ofReply⟩
  rcases answers_or_fails reply with ⟨analysis, hanswers⟩ | ⟨other, hfails⟩
  · exact absurd (hanswers.ofReply.symm.trans h) (by simp)
  · obtain rfl : other = e := Except.error.inj (hfails.ofReply.symm.trans h)
    exact hfails

end

end Reply

/-! ## The question -/

/-- The texts of the prompts in a question, each by its parts. -/
def prompts? (json : Json) : Option (List (List String)) := do
  match ← json.fields? ["contents"] with
  | [contents] => Json.required (Json.list? contentTexts?) contents
  | _ => none

section

variable {settings : ServiceSettings}

theorem printable_textSchema (fields : List (String × Json)) (h : ∀ field ∈ fields, field.2.Printable) :
    (Service.textSchema fields).Printable :=
  Json.printable_ofFields (List.forall_mem_cons.mpr ⟨Json.printable_ofText _, h⟩)

theorem printable_textsSchema (description : String) : (Service.textsSchema description).Printable :=
  Json.printable_ofFields (by simp [Json.printable_ofText, printable_textSchema])

theorem printable_answerSchema : Service.answerSchema.Printable := by
  refine Json.printable_ofFields ?_
  simp only [List.forall_mem_cons, Json.printable_ofText, true_and]
  refine ⟨Json.printable_ofFields ?_, Json.printable_map Json.printable_ofText _, by simp⟩
  simp [printable_textSchema, printable_textsSchema, Json.printable_ofText]

theorem printable_content (text : String) :
    (Json.ofFields [("parts", .array [.ofFields [("text", .ofText text)]])]).Printable := by
  have hpart : (Json.ofFields [("text", .ofText text)]).Printable :=
    Json.printable_ofFields (by simp [Json.printable_ofText])
  exact Json.printable_ofFields (by simpa using Json.Printable.array (by simpa using hpart))

theorem printable_requestBody (prompt : String) : (Service.requestBody prompt).Printable := by
  refine Json.printable_ofFields ?_
  simp only [List.forall_mem_cons]
  refine ⟨.array (by simpa using printable_content prompt), Json.printable_ofFields ?_, by simp⟩
  simp [Json.printable_ofText, printable_answerSchema]

theorem partText?_ofText (text : String) : partText? (.ofFields [("text", .ofText text)]) = some text := by
  unfold partText?
  rw [Json.fields?_ofFields]
  case hnames => rfl
  case h => decide
  exact Json.text?_ofText text

theorem contentTexts?_ofText (text : String) :
    contentTexts? (.ofFields [("parts", .array [.ofFields [("text", .ofText text)]])]) = some [text] := by
  have hparts : Json.list? partText? (.array ([text].map fun text => .ofFields [("text", .ofText text)])) =
      some [text] := Json.list?_map_eq_some_iff.mpr fun text _ => partText?_ofText text
  unfold contentTexts?
  rw [Json.fields?_ofFields]
  case hnames => rfl
  case h => decide
  exact hparts

/-- A question holds one prompt, in one part. -/
theorem prompts?_requestBody (prompt : String) : prompts? (Service.requestBody prompt) = some [[prompt]] := by
  have hcontents : Json.list? contentTexts? (.array ([[prompt]].map fun texts =>
      .ofFields [("parts", .array (texts.map fun text => .ofFields [("text", .ofText text)]))])) =
      some [[prompt]] := by
    refine Json.list?_map_eq_some_iff.mpr fun texts htexts => ?_
    obtain rfl := List.mem_singleton.mp htexts
    exact contentTexts?_ofText prompt
  -- the names are given with their values, for it is these that the others have to differ from
  have hnames : ["contents"] = [("contents",
      Json.array [.ofFields [("parts", .array [.ofFields [("text", .ofText prompt)]])]])].map Prod.fst := rfl
  unfold prompts? Service.requestBody
  rw [hnames, Json.fields?_ofFields_of_subset]
  case h => simp
  case hasked => simp
  exact hcontents

/-- The posted document is read back to a question that ends with the text. -/
theorem prompts?_request (subject : Subject) (text : String) :
    (Json.parse? (Service.requestBody (subject.question ++ text)).source).bind prompts? =
      some [[subject.question ++ text]] := by
  rw [(printable_requestBody _).parse?, Option.bind_some, prompts?_requestBody]

/-! ## A response in which a text is said -/

/-- A candidate in which a text is said and everything else is left out. -/
def Reply.candidateSaying (text : String) : Json :=
  .ofFields [("content", .ofFields [("parts", .array [.ofFields [("text", .ofText text)]])])]

/-- The body of a response with one such candidate. -/
def Reply.bodySaying (text : String) : String :=
  String.ofList (Json.ofFields [("candidates", .array [Reply.candidateSaying text])]).source

theorem candidateTexts?_saying (text : String) :
    candidateTexts? (Reply.candidateSaying text) = some [text] := by
  unfold candidateTexts? Reply.candidateSaying
  rw [Json.fields?_ofFields]
  case hnames => rfl
  case h => decide
  exact contentTexts?_ofText text

theorem Reply.reads_bodySaying (text : String) : Reads (bodySaying text) [[text]] := by
  have hprintable : (Json.ofFields [("candidates", .array [candidateSaying text])]).Printable := by
    have hcandidate : (candidateSaying text).Printable :=
      Json.printable_ofFields (by simpa using printable_content text)
    exact Json.printable_ofFields (by simpa using Json.Printable.array (by simpa using hcandidate))
  have hlist : Json.list? candidateTexts? (.array [candidateSaying text]) = some [[text]] := by
    show [candidateSaying text].mapM candidateTexts? = _
    rw [List.mapM_cons, candidateTexts?_saying]
    rfl
  refine ⟨.ofFields [("candidates", .array [candidateSaying text])], ?_, ?_⟩
  · rw [bodySaying, String.toList_ofList, hprintable.parse?]
  · show (Json.list? candidateTexts? (.array [candidateSaying text])).bind _ = _
    rw [hlist]
    rfl

/-! ## The exchange -/

theorem Service.at?_of_key (h : settings.key ≠ "") (address : String) :
    Service.at? address settings = some (.online address settings) :=
  if_neg fun hempty => h (String.isEmpty_iff.mp hempty)

theorem Service.at?_of_no_key (h : settings.key = "") (address : String) :
    Service.at? address settings = none :=
  if_pos (String.isEmpty_iff.mpr h)

/-- **An exchange with the service.** With a key `Service.at?` gives a service, `request?` sends it one request
whose only prompt (`prompts?`) ends with the text, and `outcome` is an explanation for the replies that
`Reply.Answers` gives one and an error for those that `Reply.Fails` gives it. Without a key `Service.ofSettings`
is offline: `request?` sends nothing, and `outcome` does not look at a reply. -/
theorem exchange_decided (address : String) (settings : ServiceSettings) (subject : Subject) (text : String) :
    (settings.key ≠ "" → ∃ service request prompt,
      Service.at? address settings = some service ∧
      (address = Service.standardAddress → Service.ofSettings settings = service) ∧
      service.request? subject text = some request ∧ request.method = "POST" ∧
      request.url = address ++ "/" ++ settings.model ++ ":generateContent?key=" ++ settings.key ∧
      (Json.parse? request.body.source).bind prompts? = some [[prompt]] ∧ text.toList <:+ prompt.toList ∧
      ∀ reply, (∀ analysis, service.outcome reply = .ok analysis ↔ reply.Answers analysis) ∧
        ∀ e, service.outcome reply = .error e ↔ reply.Fails e) ∧
    (settings.key = "" →
      Service.at? address settings = none ∧ (Service.ofSettings settings).request? subject text = none ∧
      ∀ reply, (Service.ofSettings settings).outcome reply = .error .offline) := by
  constructor
  · intro hkey
    have hsettings : address = Service.standardAddress →
        Service.ofSettings settings = .online address settings := by
      rintro rfl
      rw [Service.ofSettings, Service.at?_of_key hkey, Option.getD_some]
    have hends : text.toList <:+ (subject.question ++ text).toList := by
      rw [String.toList_append]
      exact List.suffix_append _ _
    exact ⟨.online address settings, _, subject.question ++ text, Service.at?_of_key hkey address, hsettings,
      rfl, rfl, rfl, prompts?_request subject text, hends,
      fun reply => ⟨fun _ => Reply.ofReply_eq_ok_iff, fun _ => Reply.ofReply_eq_error_iff⟩⟩
  · intro hkey
    have hoffline : Service.ofSettings settings = .offline := by
      rw [Service.ofSettings, Service.at?_of_no_key hkey, Option.getD_none]
    rw [hoffline]
    exact ⟨Service.at?_of_no_key hkey address, rfl, fun _ => rfl⟩

/-- A `Service` with a key, and three replies: what `bodySaying` says is a fenced document with fields left
out, then one with nothing in it behind a fence that is never closed, and then the status is not `Accepted`.
Without a key the service is offline. -/
theorem exchange_decided_both :
    ("k" ≠ "" ∧ ∃ service request prompt,
      Service.at? "http://localhost" ⟨"k", "m", 30⟩ = some service ∧
      ("http://localhost" = Service.standardAddress → Service.ofSettings ⟨"k", "m", 30⟩ = service) ∧
      service.request? .expression "2+2" = some request ∧ request.method = "POST" ∧
      request.url = "http://localhost" ++ "/" ++ "m" ++ ":generateContent?key=" ++ "k" ∧
      (Json.parse? request.body.source).bind prompts? = some [[prompt]] ∧
      "2+2".toList <:+ prompt.toList ∧
      service.outcome (.response 200 (Reply.bodySaying "```json\n\x7b\"explanation\":\"sum\"\x7d\n```")) =
        .ok ⟨"sum", [], [], none⟩ ∧
      service.outcome (.response 200 (Reply.bodySaying "```\n\x7b\"explanation\":\"\"\x7d")) =
        .error .nothingSaid ∧
      service.outcome (.response 300 (Reply.bodySaying "sum")) =
        .error (.refused 300 (Reply.bodySaying "sum"))) ∧
    ("" = "" ∧ Service.at? "http://localhost" ⟨"", "m", 30⟩ = none ∧
      (Service.ofSettings ⟨"", "m", 30⟩).request? .expression "2+2" = none ∧
      ∀ reply, (Service.ofSettings ⟨"", "m", 30⟩).outcome reply = .error .offline) := by
  have hkey : "k" ≠ "" := by decide
  obtain ⟨service, request, prompt, hservice, hstandard, hrequest, hmethod, hurl, hprompt, hends, houtcome⟩ :=
    (exchange_decided "http://localhost" ⟨"k", "m", 30⟩ .expression "2+2").1 hkey
  have haccepted : Status.Accepted 200 := ⟨by decide, by decide⟩
  have hexplains : Reply.Explains "```json\n\x7b\"explanation\":\"sum\"\x7d\n```" ⟨"sum", [], [], none⟩ :=
    Reply.explains_iff.mpr (by decide +kernel)
  have hsays : Reply.Explains "```\n\x7b\"explanation\":\"\"\x7d" ⟨"", [], [], none⟩ :=
    Reply.explains_iff.mpr (by decide +kernel)
  have hanswers := Reply.Answers.response haccepted (Reply.reads_bodySaying _)
    ⟨[], [], rfl, '`', by decide, by decide⟩ hexplains (.inl (by decide))
  have hfails := Reply.Fails.nothingSaid haccepted (Reply.reads_bodySaying _)
    ⟨[], [], rfl, '`', by decide, by decide⟩ hsays ⟨rfl, rfl⟩
  have hrefused := Reply.Fails.refused (Reply.bodySaying "sum") fun h : Status.Accepted 300 =>
    absurd h.2 (by decide)
  exact ⟨⟨hkey, service, request, prompt, hservice, hstandard, hrequest, hmethod, hurl, hprompt, hends,
      ((houtcome _).1 _).mpr hanswers, ((houtcome _).2 _).mpr hfails,
      ((houtcome _).2 _).mpr hrefused⟩,
    rfl, (exchange_decided "http://localhost" ⟨"", "m", 30⟩ .expression "2+2").2 rfl⟩

end

end Calculator
