import Allowance.Proofs.Checked
import Allowance.Proofs.Evaluation
import Allowance.Proofs.Json.Access
import Allowance.Proofs.Json.RoundTrip
import Allowance.Proofs.Text.Numeral
import Allowance.Proofs.World.Step
import Allowance.Replay
import Mathlib

/-! # What a replay accounts for

A line that is no comment is a request, or malformed, or it derails the replay: it holds a value
that is put to a use which its kind or its size does not admit. A replay that no line derails counts
every line once and prints the decisions in the order of the lines. One that a line derails fails
there, and the lines after it and the tally are lost; so does one of a file whose bytes do not
decode, after the lines before these bytes.
-/

namespace Allowance

open Checked

namespace Request

variable {v : Json} {kind : Fault → Prop}

/-- The fields that are checked first, up to the two addresses, are those of a request. -/
def HasHead (fields : Json.Fields) : Prop :=
  ∃ chain action recipient sender,
    checkChain ((fields.lookup "chainId").getD .null) = .ok chain ∧
    checkAction ((fields.lookup "type").getD .null) = .ok action ∧
    checkAddress .badRecipient ((fields.lookup "to").getD .null) = .ok recipient ∧
    checkAddress .badSender ((fields.lookup "from").getD .null) = .ok sender

theorem fails_throw {α : Type} {e : RequestError} :
    Fails kind (e.throw : Checked α) ↔ kind (.request e) := fails_error

section Refusals

variable (hkind : ∀ e, ¬ kind (.request e))
include hkind

theorem not_fails_checkChain : ¬ Fails kind (checkChain v) := by
  unfold checkChain
  extract_lets asText
  generalize asText = u
  split
  · simp [fails_throw, hkind]
  · split
    · split <;> simp [fails_throw, hkind]
    · simp [fails_throw, hkind]

theorem not_fails_checkAction : ¬ Fails kind (checkAction v) := by
  unfold checkAction
  split
  · simp [fails_throw, hkind]
  · split <;> simp [fails_throw, hkind]

theorem not_fails_checkAddress {refuse : Json → RequestError} :
    ¬ Fails kind (checkAddress refuse v) := by
  unfold checkAddress
  split
  · simp
  · split
    · split <;> simp [fails_throw, hkind]
    · simp [fails_throw, hkind]

/-- An integer beyond all doubles is not refused as a value. -/
theorem fails_checkValue_iff : Fails kind (checkValue v) ↔ v.IsHuge ∧ kind (.misuse .tooLarge) := by
  unfold checkValue
  split
  · simp [Json.IsHuge]
  · rw [fails_bind, Json.fails_finite?_iff, or_iff_left]
    rintro ⟨found, -, hfails⟩
    revert hfails
    split
    · split <;> simp [fails_throw, hkind]
    · simp [fails_throw, hkind]

/-- Arguments are gone through before they are refused. -/
theorem fails_checkArguments_iff :
    Fails kind (checkArguments v) ↔ v.IsSolid ∧ kind (.misuse .wrongKind) := by
  unfold checkArguments
  split
  · simp [Json.IsSolid]
  · simp [Json.IsSolid, fails_throw, hkind]
  · rename_i hnull _
    rw [fails_bind, Json.fails_parts_iff, or_iff_left, or_iff_right hnull]
    rintro ⟨parts, -, hfails⟩
    revert hfails
    split <;> simp [fails_throw, hkind]

/-- What is no request is refused, unless its value is beyond all doubles, or its value is checked
and its arguments cannot be gone through. -/
theorem fails_ofJson_iff : Fails kind (ofJson v) ↔
    ∃ fields, v = .object fields ∧ HasHead fields ∧
      (((fields.lookup "valueUsd").getD .null).IsHuge ∧ kind (.misuse .tooLarge) ∨
        (∃ value, checkValue ((fields.lookup "valueUsd").getD .null) = .ok value) ∧
          ((fields.lookup "arguments").getD .null).IsSolid ∧ kind (.misuse .wrongKind)) := by
  cases v with
  | object fields =>
    simp only [ofJson, Json.field, ok_bind, fails_bind, not_fails_checkChain hkind,
      not_fails_checkAction hkind, not_fails_checkAddress hkind, fails_checkValue_iff hkind,
      fails_checkArguments_iff hkind, not_fails_pure, and_false, exists_false, or_false, false_or]
    constructor
    · rintro ⟨chain, hchain, action, haction, recipient, hrecipient, sender, hsender, h⟩
      refine ⟨fields, rfl, ⟨chain, action, recipient, sender, hchain, haction, hrecipient,
        hsender⟩, h.imp_right ?_⟩
      rintro ⟨value, hvalue, hsolid⟩
      exact ⟨⟨value, hvalue⟩, hsolid⟩
    · rintro ⟨_, ⟨⟩, ⟨chain, action, recipient, sender, hchain, haction, hrecipient, hsender⟩, h⟩
      refine ⟨chain, hchain, action, haction, recipient, hrecipient, sender, hsender,
        h.imp_right ?_⟩
      rintro ⟨⟨value, hvalue⟩, hsolid⟩
      exact ⟨value, hvalue, hsolid⟩
  | _ => simp [ofJson, fails_throw, hkind]

end Refusals

end Request

namespace Json

variable {text : String} {reader : Reader}

theorem parse_eq_ok {v : Json} : parse text reader = .ok v ↔ read text reader = .ok v := by
  unfold parse
  split <;> simp_all

/-- No half of a pair stands alone in the text, so that it denotes the same whatever stands for
one. -/
def Whole (reader : Reader) (text : String) : Prop :=
  ∀ half, read text { reader with half } = read text reader

/-- What is written is whole, since a text has no halves. -/
theorem Legible.whole {v : Json} (h : Legible reader.depth v) (indent : Option Nat) :
    Whole reader (v.write indent) := by
  intro half
  have hother : Legible ({ reader with half } : Reader).depth v := h
  rw [hother.read_write indent, h.read_write indent]

theorem lineFeed_not_mem_escapedChar (c : Char) : '\n' ∉ escapedChar c := by
  have hdigit : ∀ n, '\n' ≠ Text.hexDigit (n % 16) := by
    have hall : ∀ n < 16, '\n' ≠ Text.hexDigit n := by decide
    exact fun n => hall _ (Nat.mod_lt _ (by decide))
  have hunit : ∀ n, '\n' ∉ unitEscape n := by
    intro n
    simp only [unitEscape, hexDigits_four, List.mem_cons, List.not_mem_nil, hdigit, or_false,
      not_or]
    decide
  unfold escapedChar
  split
  · rename_i h
    rcases Bool.or_eq_true _ _ ▸ h with h | h <;> simp_all
  · split_ifs with hfeed hreturn htab hform hback hplain hunits
    · decide
    · decide
    · decide
    · decide
    · decide
    · rintro hmem
      exact hfeed (List.mem_singleton.mp hmem).symm
    · exact hunit _
    · simp [hunit]

theorem lineFeed_not_mem_writtenText (s : String) : '\n' ∉ (writtenText s).toList := by
  simp [toList_writtenText, lineFeed_not_mem_escapedChar]

end Json

namespace Replay

variable {reader : Json.Reader} {d : Document} {now : Option Number} {line : String}
  {w w' : World} {tally : Tally}

/-- What becomes of a line: it is a request, it is malformed, or it derails the replay. -/
inductive Fate
  | request (r : Request)
  | malformed
  | derails
  deriving DecidableEq

def fate (reader : Json.Reader) (line : String) : Fate :=
  match requestOf reader line with
  | .ok r => .request r
  | .error (.notJson _) => .malformed
  | .error (.request _) => .malformed
  | .error _ => .derails

/-- The fault is no flaw of a text or of a request, which a replay reports and goes on after. -/
def Escapes : Fault → Prop
  | .notJson _ => False
  | .request _ => False
  | _ => True

theorem fails_parse_iff : Fails Escapes (Json.parse line reader) ↔
    Json.read line reader = .error .longNumber ∨ Json.read line reader = .error .tooDeep := by
  unfold Json.parse
  split
  · simp_all
  · rename_i e h
    cases e <;> simp [h, Fault.ofReadError, Escapes]

/-- A line is malformed if it is not JSON, or JSON that is refused as a request. -/
def Malformed (reader : Json.Reader) (line : String) : Prop :=
  (∃ e, Json.read line reader = .error (.malformed e)) ∨
    ∃ v e, Json.read line reader = .ok v ∧ Request.ofJson v = .error (.request e)

/-- A line derails a replay if it holds an integer of too many digits, is nested too deep, or is an
object of which only the value and the arguments are still to be checked, and one of them fails. -/
def Derails (reader : Json.Reader) (line : String) : Prop :=
  Json.read line reader = .error .longNumber ∨ Json.read line reader = .error .tooDeep ∨
    ∃ fields, Json.read line reader = .ok (.object fields) ∧ Request.HasHead fields ∧
      (((fields.lookup "valueUsd").getD .null).IsHuge ∨
        (∃ value, Request.checkValue ((fields.lookup "valueUsd").getD .null) = .ok value) ∧
          ((fields.lookup "arguments").getD .null).IsSolid)

theorem fate_malformed_iff : fate reader line = .malformed ↔ Malformed reader line := by
  unfold fate requestOf Malformed
  cases hread : Json.read line reader with
  | error e =>
    cases e <;> simp [Json.parse, hread, Fault.ofReadError]
  | ok v =>
    have hnotJson : ∀ e, Request.ofJson v ≠ .error (.notJson e) := by
      intro e h
      have hfails : Fails (fun f => ∃ e, f = .notJson e) (Request.ofJson v) := ⟨_, h, e, rfl⟩
      simp [Request.fails_ofJson_iff] at hfails
    rw [Json.parse_eq_ok.mpr hread, ok_bind]
    split <;> simp_all

instance : Decidable (Malformed reader line) := decidable_of_iff _ fate_malformed_iff

theorem fate_derails_iff : fate reader line = .derails ↔ Derails reader line := by
  have hfate : fate reader line = .derails ↔ Fails Escapes (requestOf reader line) := by
    unfold fate
    split <;> simp_all [Escapes]
  rw [hfate, requestOf, fails_bind, fails_parse_iff, or_assoc, Derails]
  refine or_congr_right (or_congr_right ?_)
  have hrequest : ∀ e, ¬ Escapes (.request e) := fun _ => id
  simp only [Request.fails_ofJson_iff hrequest, Json.parse_eq_ok, Escapes, and_true]
  constructor
  · rintro ⟨_, hread, fields, rfl, h⟩
    exact ⟨fields, hread, h⟩
  · rintro ⟨fields, hread, h⟩
    exact ⟨_, hread, fields, rfl, h⟩

section Tallies

variable {key name : String}

def Tally.count (t : Tally) (key : String) : Nat := (t.lookup key).getD 0

def Tally.total (t : Tally) : Nat := (t.map (·.2)).sum

theorem Tally.total_add (t : Tally) : (t.add key).total = t.total + 1 := by
  induction t with
  | nil => rfl
  | cons entry rest ih =>
    obtain ⟨other, n⟩ := entry
    unfold Tally.total at ih ⊢
    rw [Tally.add]
    split
    · simp only [List.map_cons, List.sum_cons]
      omega
    · simp only [List.map_cons, List.sum_cons, ih]
      omega

theorem Tally.count_cons (other : String) (n : Nat) (rest : Tally) :
    Tally.count ((other, n) :: rest) name = if other = name then n else rest.count name := by
  by_cases h : other = name
  · simp [Tally.count, h]
  · have hname : (name == other) = false := beq_false_of_ne (Ne.symm h)
    simp [Tally.count, List.lookup_cons, h, hname]

theorem Tally.count_add (t : Tally) :
    (t.add key).count name = t.count name + if key = name then 1 else 0 := by
  induction t with
  | nil => rw [Tally.add, Tally.count_cons]; simp [Tally.count]
  | cons entry rest ih =>
    obtain ⟨other, n⟩ := entry
    rw [Tally.add]
    split
    · rename_i h
      subst h
      simp only [Tally.count_cons]
      split <;> rfl
    · simp only [Tally.count_cons, ih]
      split_ifs with hother hkey
      · simp_all
      · rfl
      · rfl
      · rfl

end Tallies

-- Nothing is known of a history, so that there is nothing to evaluate in taking it apart.
attribute [local irreducible] Text.trimmed Content.lines

section Runs

abbrev Entry := String × Nat

/-- The lines that are no comments. -/
def entries (lines : List (String × Nat)) : List Entry :=
  (lines.map fun (line, number) => (Text.trimmed line, number)).filter (!isComment ·.1)

variable {seen more : List Entry} {t t₁ t₂ : Tally}
  {w₁ w₂ : World} {f : Fault}

theorem entries_append (lines rest : List (String × Nat)) :
    entries (lines ++ rest) = entries lines ++ entries rest := by
  simp [entries]

def decision? (reader : Json.Reader) (d : Document) (now : Option Number) (entry : Entry) :
    Option (Nat × Decision) :=
  match fate reader entry.1 with
  | .request r => some (entry.2, d.evaluate r now)
  | _ => none

def decisions (reader : Json.Reader) (d : Document) (now : Option Number) (seen : List Entry) :
    List (Nat × Decision) :=
  seen.filterMap (decision? reader d now)

def resultText : Nat × Decision → String
  | (number, decision) => (Json.object (("line", .int number) :: decision.fields)).write none

def report (results : List (Nat × Decision)) : String :=
  String.join (results.map fun result => resultText result ++ "\n")

theorem report_append (xs ys : List (Nat × Decision)) :
    report (xs ++ ys) = report xs ++ report ys := by
  simp [report]

def keyOf (reader : Json.Reader) (d : Document) (now : Option Number) (line : String) : String :=
  match fate reader line with
  | .request r => (Outcome.decided (d.evaluate r now)).key
  | _ => "malformed"

def tallied (reader : Json.Reader) (d : Document) (now : Option Number) (seen : List Entry)
    (t : Tally) : Tally :=
  seen.foldl (fun t entry => t.add (keyOf reader d now entry.1)) t

theorem total_tallied : (tallied reader d now seen t).total = t.total + seen.length := by
  induction seen generalizing t with
  | nil => rfl
  | cons entry seen ih =>
    rw [tallied, List.foldl_cons, ← tallied, ih, Tally.total_add, List.length_cons]
    omega

theorem count_tallied (key : String) : (tallied reader d now seen t).count key =
    t.count key + seen.countP fun entry => keyOf reader d now entry.1 = key := by
  induction seen generalizing t with
  | nil => simp [tallied]
  | cons entry seen ih =>
    rw [tallied, List.foldl_cons, ← tallied, ih, Tally.count_add, List.countP_cons]
    simp only [decide_eq_true_eq]
    omega

/-- Lines of which none derails were counted, and the decisions among them printed. -/
structure Accounted (reader : Json.Reader) (d : Document) (now : Option Number)
    (seen : List Entry) (t t' : Tally) (w w' : World) : Prop where
  stays : ∀ entry ∈ seen, fate reader entry.1 ≠ .derails
  tally : t' = tallied reader d now seen t
  output : w'.output = w.output ++ report (decisions reader d now seen)

/-- One of the lines derailed the replay, which failed with its fault; those before it were
accounted for. -/
def Derailed (reader : Json.Reader) (d : Document) (now : Option Number) (seen : List Entry)
    (t : Tally) (f : Fault) (w w' : World) : Prop :=
  ∃ before entry after t', seen = before ++ entry :: after ∧ fate reader entry.1 = .derails ∧
    requestOf reader entry.1 = .error f ∧ Accounted reader d now before t t' w w'

theorem Accounted.nil : Accounted reader d now [] t t w w where
  stays := nofun
  tally := rfl
  output := by simp [decisions, report]

theorem Accounted.append (h : Accounted reader d now seen t t₁ w w₁)
    (h' : Accounted reader d now more t₁ t₂ w₁ w₂) :
    Accounted reader d now (seen ++ more) t t₂ w w₂ where
  stays entry hentry := (List.mem_append.mp hentry).elim (h.stays entry) (h'.stays entry)
  tally := by rw [h'.tally, h.tally, tallied, tallied, tallied, List.foldl_append]
  output := by
    rw [h'.output, h.output, decisions, decisions, decisions, List.filterMap_append, report_append,
      String.append_assoc]

theorem Accounted.derailed (h : Accounted reader d now seen t t₁ w w₁)
    (h' : Derailed reader d now more t₁ f w₁ w₂) :
    Derailed reader d now (seen ++ more) t f w w₂ := by
  obtain ⟨before, entry, after, t', rfl, hentry, hfault, hbefore⟩ := h'
  exact ⟨seen ++ before, entry, after, t', by simp, hentry, hfault, h.append hbefore⟩

theorem Derailed.append (h : Derailed reader d now seen t f w w₁) :
    Derailed reader d now (seen ++ more) t f w w₁ := by
  obtain ⟨before, entry, after, t', rfl, hentry, hfault, hbefore⟩ := h
  exact ⟨before, entry, after ++ more, t', by simp, hentry, hfault, hbefore⟩

theorem outcome_of_request {r : Request} (h : fate reader line = .request r) :
    outcome reader d (.ofNumber? now) line = .ok (.decided (d.evaluate r now)) := by
  unfold fate at h
  unfold outcome
  split at h
  all_goals simp_all [Document.evaluateAt_ofNumber?]

theorem outcome_of_malformed (d : Document) (now : Option Number)
    (h : fate reader line = .malformed) :
    ∃ reason, outcome reader d (.ofNumber? now) line = .ok (.malformed reason) := by
  unfold fate at h
  unfold outcome
  split at h
  all_goals simp_all

theorem outcome_of_derails (d : Document) (now : Option Number)
    (h : fate reader line = .derails) :
    ∃ f, requestOf reader line = .error f ∧ outcome reader d (.ofNumber? now) line = .error f := by
  unfold fate at h
  unfold outcome
  split at h
  all_goals simp_all

theorem leads_outcome (line : String) (number : Nat) :
    (do
        let o ← outcome reader d (.ofNumber? now) line
        publish number o
        return t.add o.key : Step Tally).Leads w
      (fun t' w' => Accounted reader d now [(line, number)] t t' w w')
      fun f w' => Derailed reader d now [(line, number)] t f w w' := by
  cases hfate : fate reader line with
  | request r =>
    rw [outcome_of_request hfate]
    refine .of_ok (Step.perform_bind_of_ok rfl) ⟨?_, ?_, ?_⟩
    · simp [hfate]
    · simp [tallied, keyOf, hfate]
    · simp [decisions, decision?, report, resultText, hfate, String.append_assoc]
  | malformed =>
    obtain ⟨reason, houtcome⟩ := outcome_of_malformed d now hfate
    rw [houtcome]
    refine .of_ok (Step.perform_bind_of_ok rfl) ⟨?_, ?_, ?_⟩
    · simp [hfate]
    · simp [tallied, keyOf, hfate, Outcome.key]
    · simp [decisions, decision?, report, hfate]
  | derails =>
    obtain ⟨f, hfault, houtcome⟩ := outcome_of_derails d now hfate
    rw [houtcome]
    exact .of_error rfl ⟨[], (line, number), [], t, rfl, hfate, hfault, .nil⟩

/-- A line is accounted for, or it derails the replay. -/
theorem leads_replayLine (line : String) (number : Nat) :
    (replayLine reader d (.ofNumber? now) t line number).Leads w
      (fun t' w' => Accounted reader d now (entries [(line, number)]) t t' w w')
      fun f w' => Derailed reader d now (entries [(line, number)]) t f w w' := by
  unfold replayLine
  extract_lets trimmed
  split <;> rename_i hcomment
  · rw [show entries [(line, number)] = [] by simp [entries, trimmed, hcomment]]
    exact .pure .nil
  · rw [show entries [(line, number)] = [(trimmed, number)] by simp [entries, trimmed, hcomment]]
    exact leads_outcome trimmed number

theorem leads_lines (lines : List (String × Nat)) :
    (lines.foldlM (fun tally (line, number) =>
        replayLine reader d (.ofNumber? now) tally line number) t).Leads w
      (fun t' w' => Accounted reader d now (entries lines) t t' w w')
      fun f w' => Derailed reader d now (entries lines) t f w w' := by
  induction lines generalizing t w with
  | nil => exact .pure .nil
  | cons entry lines ih =>
    obtain ⟨line, number⟩ := entry
    have hentries : entries ((line, number) :: lines) = entries [(line, number)] ++ entries lines :=
      entries_append [(line, number)] lines
    rw [List.foldlM_cons, hentries]
    refine .bind ((leads_replayLine line number).mono ?_ fun _ _ h => h.append)
    exact fun t₁ w₁ h => ih.mono (fun _ _ h' => h.append h') fun _ _ h' => h.derailed h'

end Runs

section Accounts

variable {lines : List Entry} {tally : Tally}

theorem code_ne_malformed (cause : Denial) : cause.code ≠ "malformed" := by
  cases cause <;> simp [Denial.code]

theorem key_ne_malformed (decision : Decision) : (Outcome.decided decision).key ≠ "malformed" := by
  cases decision with
  | allow => simp [Outcome.key]
  | deny cause => exact code_ne_malformed cause

theorem keyOf_malformed_iff (h : fate reader line ≠ .derails) :
    keyOf reader d now line = "malformed" ↔ fate reader line = .malformed := by
  unfold keyOf
  cases hfate : fate reader line with
  | request r => simp [key_ne_malformed]
  | malformed => simp
  | derails => exact absurd hfate h

theorem countP_keyOf {key : String} (hkey : key ≠ "malformed") :
    (lines.countP fun entry => keyOf reader d now entry.1 = key) =
      (decisions reader d now lines).countP fun result => (Outcome.decided result.2).key = key := by
  induction lines with
  | nil => rfl
  | cons entry lines ih =>
    rw [List.countP_cons, ih, decisions, decisions, List.filterMap_cons]
    cases hfate : fate reader entry.1 <;>
      simp [keyOf, decision?, hfate, List.countP_cons, hkey.symm]

theorem length_decisions (h : ∀ entry ∈ lines, fate reader entry.1 ≠ .derails) :
    (decisions reader d now lines).length +
        (lines.countP fun entry => fate reader entry.1 = .malformed) = lines.length := by
  induction lines with
  | nil => rfl
  | cons entry lines ih =>
    have ih := ih fun other hother => h other (List.mem_cons_of_mem _ hother)
    rw [decisions] at ih
    rw [List.countP_cons, decisions, List.filterMap_cons, List.length_cons]
    cases hfate : fate reader entry.1 with
    | request r =>
      simp only [decision?, hfate, List.length_cons, reduceCtorEq, decide_false, Bool.false_eq_true,
        if_false]
      omega
    | malformed =>
      simp only [decision?, hfate, decide_true, if_true]
      omega
    | derails => exact absurd hfate (h entry List.mem_cons_self)

theorem splitLines_append {cs after : List Char} (h : '\n' ∉ cs) :
    Text.splitLines (cs ++ '\n' :: after) = cs :: Text.splitLines after := by
  induction cs with
  | nil => rfl
  | cons c cs ih =>
    have hc : c ≠ '\n' := fun heq => h (heq ▸ List.mem_cons_self)
    have ih := ih fun hmem => h (List.mem_cons_of_mem _ hmem)
    rw [List.cons_append, Text.splitLines, ih]
    exact hc

theorem lineFeed_not_mem_resultText (result : Nat × Decision) :
    '\n' ∉ (resultText result).toList := by
  obtain ⟨number, decision⟩ := result
  have hnumber : '\n' ∉ (Json.writtenNumber (.int number)).toList := by
    have hdigits : '\n' ∉ (Text.natText number).toList := by
      intro hmem
      rw [Text.natText, String.toList_ofList] at hmem
      exact absurd (Text.isAsciiDigit_of_mem_digits number _ hmem) (by decide)
    have hsign : ¬ (number : Int) < 0 := by omega
    simpa [Json.writtenNumber, Number.text, Text.intText, hsign] using hdigits
  cases decision <;>
    simp [resultText, Decision.fields, Json.write, Json.written, Json.writtenFields, Json.int,
      Json.lineFeed_not_mem_writtenText, hnumber, Json.Layout.ofIndent?, Json.Layout.deeper,
      Json.Layout.lineBreak, Json.Layout.separator]

section Whole

variable {half : Nat → Char} {seen : List Entry} {t t' : Tally} {f : Fault}

theorem requestOf_whole (h : Json.Whole reader line) :
    requestOf { reader with half } line = requestOf reader line := by
  rw [requestOf, requestOf, Json.parse, Json.parse, h half]

theorem fate_whole (h : Json.Whole reader line) :
    fate { reader with half } line = fate reader line := by
  rw [fate, fate, requestOf_whole h]

/-- What whole lines come to does not depend on what stands for halves. -/
theorem Accounted.whole (h : Accounted { reader with half } d now seen t t' w w')
    (hseen : ∀ entry ∈ seen, Json.Whole reader entry.1) :
    Accounted reader d now seen t t' w w' where
  stays entry hentry := fate_whole (hseen entry hentry) ▸ h.stays entry hentry
  tally := by
    rw [h.tally]
    refine List.foldl_ext _ _ _ fun t entry hentry => ?_
    rw [keyOf, keyOf, fate_whole (hseen entry hentry)]
  output := by
    rw [h.output, decisions, decisions]
    congr 2
    refine List.filterMap_congr fun entry hentry => ?_
    rw [decision?, decision?, fate_whole (hseen entry hentry)]

theorem Derailed.whole (h : Derailed { reader with half } d now seen t f w w')
    (hseen : ∀ entry ∈ seen, Json.Whole reader entry.1) : Derailed reader d now seen t f w w' := by
  obtain ⟨before, entry, after, t', rfl, hderails, hfault, hbefore⟩ := h
  have hentry := hseen entry (by simp)
  refine ⟨before, entry, after, t', rfl, fate_whole hentry ▸ hderails,
    requestOf_whole hentry ▸ hfault, hbefore.whole fun other hother => hseen other ?_⟩
  exact List.mem_append_left _ hother

end Whole

theorem splitLines_report (results : List (Nat × Decision)) :
    (Text.splitLines (report results).toList).map String.ofList = results.map resultText := by
  induction results with
  | nil => rfl
  | cons result results ih =>
    have hreport : (report (result :: results)).toList =
        (resultText result).toList ++ '\n' :: (report results).toList := by
      simp [report]
    rw [hreport, splitLines_append (lineFeed_not_mem_resultText result), List.map_cons, ih,
      String.ofList_toList, List.map_cons]

/-- Every line is counted once. The malformed lines are counted as such, and the decision on every
other one by its result. The decisions, and nothing else, are printed one on a line. -/
structure Accounts (reader : Json.Reader) (d : Document) (now : Option Number)
    (lines : List Entry) (tally : Tally) (before after : String) : Prop where
  total : tally.total = lines.length
  malformed : tally.count "malformed" = lines.countP fun entry => Malformed reader entry.1
  decided : ∀ key ≠ "malformed", tally.count key =
    (decisions reader d now lines).countP fun result => (Outcome.decided result.2).key = key
  results : (decisions reader d now lines).length + tally.count "malformed" = lines.length
  output : after = before ++ report (decisions reader d now lines)
  printed : (Text.splitLines (report (decisions reader d now lines)).toList).map String.ofList =
    (decisions reader d now lines).map resultText

theorem Accounted.accounts (h : Accounted reader d now lines [] tally w w') :
    Accounts reader d now lines tally w.output w'.output := by
  have hmalformed :
      tally.count "malformed" = lines.countP fun entry => fate reader entry.1 = .malformed := by
    rw [h.tally, count_tallied]
    simp only [Tally.count, List.lookup_nil, Option.getD_none, Nat.zero_add]
    refine List.countP_congr fun entry hentry => ?_
    simp [keyOf_malformed_iff (h.stays entry hentry)]
  refine ⟨?_, ?_, fun key hkey => ?_, ?_, h.output, splitLines_report _⟩
  · rw [h.tally, total_tallied]
    simp [Tally.total]
  · simp only [hmalformed, fate_malformed_iff]
  · rw [h.tally, count_tallied, countP_keyOf hkey]
    simp [Tally.count]
  · rw [hmalformed, length_decisions h.stays]

theorem perform_openNamed {path : String} {content : Content}
    (h : w.disk.read (Path.normal path) = .ok content) :
    (openNamed (.string path)).perform w = (.ok content, w) := by
  simp [openNamed, CommandLine.openFile, Step.perform_bind, h]

section Files

variable {policy history text : String} {rules past : Content}
  (hpolicy : w.disk.read (Path.normal policy) = .ok rules) (htext : rules.read = .ok text)
  (hdocument : Document.parse text reader = .ok d)
  (hhistory : w.disk.read (Path.normal history) = .ok past)

include hpolicy htext hdocument hhistory

attribute [local irreducible] Path.normal

/-- A replay fails where a line derails it, or after its lines if the file does not decode, and else
it ends with the tally of its lines. -/
theorem leads_replay (now : Option Number) :
    (replay (.string policy) (.string history) (.ofNumber? now) reader).Leads w
      (fun tally w' => (∃ s, past.read = .ok s) ∧
        Accounted reader d now (entries (past.lines.zipIdx 1)) [] tally w w')
      fun f w' => Derailed reader d now (entries (past.lines.zipIdx 1)) [] f w w' ∨
        past.read = .error f ∧
          ∃ tally, Accounted reader d now (entries (past.lines.zipIdx 1)) [] tally w w' := by
  unfold replay
  refine .bind (.of_ok (perform_openNamed hpolicy) (.bind ?_))
  rw [htext]
  refine .of_ok Step.perform_lift (.bind ?_)
  rw [hdocument]
  refine .of_ok Step.perform_lift (.bind (.of_ok (perform_openNamed hhistory) (.bind ?_)))
  refine (leads_lines (past.lines.zipIdx 1)).mono (fun tally w' h => .bind ?_) fun _ _ => Or.inl
  cases hread : past.read with
  | ok s => exact .of_ok Step.perform_lift (.pure ⟨⟨s, rfl⟩, h⟩)
  | error f => exact .of_error Step.perform_lift (Or.inr ⟨rfl, tally, h⟩)

/-- A replay that no line derails accounts for all lines that are no comments, if the history
decodes. If it does not, the replay fails after the lines before. Any other replay fails at the
first line that derails it. Whenever one fails, the decisions before are printed. This holds of
every document and every history without a half that stands alone. -/
theorem replay_accounts (hwhole : Json.Whole reader text)
    (hlines : ∀ entry ∈ entries (past.lines.zipIdx 1), Json.Whole reader entry.1)
    (half : Nat → Char) (now : Option Number) :
    ((∀ entry ∈ entries (past.lines.zipIdx 1), ¬ Derails reader entry.1) →
      (∀ s, past.read = .ok s → ∃ tally w',
        (replay (.string policy) (.string history) (.ofNumber? now)
            { reader with half }).perform w = (.ok tally, w') ∧
          Accounts reader d now (entries (past.lines.zipIdx 1)) tally w.output w'.output) ∧
      ∀ f, past.read = .error f → ∃ w',
        (replay (.string policy) (.string history) (.ofNumber? now)
            { reader with half }).perform w = (.error f, w') ∧
          w'.output = w.output ++
            report (decisions reader d now (entries (past.lines.zipIdx 1)))) ∧
    ((∃ entry ∈ entries (past.lines.zipIdx 1), Derails reader entry.1) →
      ∃ f w' before entry after,
        (replay (.string policy) (.string history) (.ofNumber? now)
            { reader with half }).perform w = (.error f, w') ∧
          entries (past.lines.zipIdx 1) = before ++ entry :: after ∧
          (∀ earlier ∈ before, ¬ Derails reader earlier.1) ∧ Derails reader entry.1 ∧
          requestOf reader entry.1 = .error f ∧
          w'.output = w.output ++ report (decisions reader d now before)) := by
  simp only [← fate_derails_iff]
  have hdocument' : Document.parse text { reader with half } = .ok d := by
    rw [← hdocument, Document.parse, Document.parse, hwhole half]
  rcases (leads_replay hpolicy htext hdocument' hhistory now).ok_or_error with
    ⟨tally, w', hperform, ⟨s, hs⟩, hdone⟩ | ⟨f, w', hperform, hlost | ⟨hf, tally, hdone⟩⟩
  · replace hdone := hdone.whole hlines
    refine ⟨fun _ => ⟨fun _ _ => ⟨tally, w', hperform, hdone.accounts⟩, fun f hf => ?_⟩, ?_⟩
    · cases hs.symm.trans hf
    · rintro ⟨entry, hentry, hderails⟩
      exact absurd hderails (hdone.stays entry hentry)
  · obtain ⟨before, entry, after, t', hlines, hderails, hfault, hbefore⟩ := hlost.whole hlines
    refine ⟨fun h => absurd hderails (h entry (by simp [hlines])), fun _ => ?_⟩
    exact ⟨f, w', before, entry, after, hperform, hlines, hbefore.stays, hderails, hfault,
      hbefore.output⟩
  · replace hdone := hdone.whole hlines
    refine ⟨fun _ => ⟨fun s hs => ?_, fun e he => ?_⟩, ?_⟩
    · cases hf.symm.trans hs
    · obtain rfl := Except.error.inj (hf.symm.trans he)
      exact ⟨w', hperform, hdone.output⟩
    · rintro ⟨entry, hentry, hderails⟩
      exact absurd hderails (hdone.stays entry hentry)

end Files

def strictText : String := "\x7b\"partnerId\": \"p\"\x7d"

def archive (history : String) : World where
  sources := ⟨fun _ => 0, fun _ => "", fun _ => .badUrl, fun _ => .failure ""⟩
  disk := { files := [("p", .text strictText), ("h", .text history)] }

theorem read_archive (history : String) :
    (archive history).disk.read (Path.normal "p") = .ok (.text strictText) ∧
      (archive history).disk.read (Path.normal "h") = .ok (.text history) := by
  have hpolicy : Path.normal "p" = "p" := by cbv
  have hhistory : Path.normal "h" = "h" := by cbv
  have hnul : Disk.hasNul "p" = false ∧ Disk.hasNul "h" = false := by decide
  have hfound : (archive history).disk.open? "p" = .ok (some (.text strictText)) ∧
      (archive history).disk.open? "h" = .ok (some (.text history)) := ⟨rfl, rfl⟩
  simp [hpolicy, hhistory, hnul, hfound, Disk.read, pure_eq_ok]

theorem parse_strictText : (Content.text strictText).read = .ok strictText ∧
    ∃ d, Document.parse strictText = .ok d := by
  have hok : (Document.parse strictText).isOk = true := by decide +kernel
  refine ⟨by rfl, ?_⟩
  generalize Document.parse strictText = parsed at hok
  cases parsed with
  | ok d => exact ⟨d, rfl⟩
  | error f => cases hok

theorem whole_strictText : Json.Whole {} strictText := by
  have hwritten : strictText = (Json.object [("partnerId", .string "p")]).write none := by
    decide +kernel
  rw [hwritten]
  exact Json.Legible.whole (.object (by decide) (by simp [Json.Legible.string])) none

def pastText : String :=
  "\x7b\"chainId\": \"1\", \"type\": \"TRANSFER\"\x7d\n# none\n\x7bbroken"

theorem whole_pastText :
    ∀ entry ∈ entries ((Content.text pastText).lines.zipIdx 1), Json.Whole {} entry.1 := by
  have hlines : (entries ((Content.text pastText).lines.zipIdx 1)).map (·.1) =
      [(Json.object [("chainId", .string "1"), ("type", .string "TRANSFER")]).write none,
        "\x7bbroken"] := by
    decide +kernel
  intro entry hentry
  have hmem := List.mem_map_of_mem (f := fun entry : Entry => entry.1) hentry
  rw [hlines] at hmem
  simp only [List.mem_cons, List.not_mem_nil, or_false] at hmem
  obtain hrequest | hbroken := hmem
  · rw [hrequest]
    exact Json.Legible.whole (.object (by decide) (by simp [Json.Legible.string])) none
  · rw [hbroken]
    intro half
    simp [Json.read, Json.takeAll, Json.skipSpace, Json.takeValue, Json.takeFields]

/-- Here the request is decided, and the broken line is counted as malformed. -/
theorem pastText_accounts : ∃ d s tally w', Document.parse strictText = .ok d ∧
    Json.Whole {} strictText ∧ (Content.text pastText).read = .ok s ∧
    (∀ entry ∈ entries ((Content.text pastText).lines.zipIdx 1),
      Json.Whole {} entry.1 ∧ ¬ Derails {} entry.1) ∧
    (replay (.string "p") (.string "h") .null).perform (archive pastText) = (.ok tally, w') ∧
    tally.total = 2 ∧ tally.count "malformed" = 1 ∧
    (decisions {} d none (entries ((Content.text pastText).lines.zipIdx 1))).length = 1 := by
  obtain ⟨htext, d, hd⟩ := parse_strictText
  obtain ⟨hpolicy, hhistory⟩ := read_archive pastText
  have hfates : (entries ((Content.text pastText).lines.zipIdx 1)).map (fate {} ·.1) =
      [.request ⟨"1", .transfer, none, none, none, none⟩, .malformed] := by
    decide +kernel
  have hwhole := whole_pastText
  have haccounts := (replay_accounts hpolicy htext hd hhistory whole_strictText hwhole
    ({} : Json.Reader).half none).1
  dsimp only at haccounts
  generalize entries ((Content.text pastText).lines.zipIdx 1) = lines at hfates hwhole haccounts ⊢
  have hstays : ∀ entry ∈ lines, ¬ Derails {} entry.1 := by
    intro entry hentry hderails
    have hmem := List.mem_map_of_mem (f := fun entry : Entry => fate {} entry.1) hentry
    simp [hfates, fate_derails_iff.mpr hderails] at hmem
  have hlength : lines.length = 2 := by simpa using congrArg List.length hfates
  obtain ⟨tally, w', hperform, haccounts⟩ := (haccounts hstays).1 _ rfl
  have hmalformed : tally.count "malformed" = 1 := by
    have hcount := congrArg (List.countP fun found => decide (found = Fate.malformed)) hfates
    rw [List.countP_map] at hcount
    simp only [haccounts.malformed, ← fate_malformed_iff]
    exact hcount
  have hresults := haccounts.results
  exact ⟨d, _, tally, w', hd, whole_strictText, rfl,
    fun entry hentry => ⟨hwhole entry hentry, hstays entry hentry⟩, hperform,
    haccounts.total.trans hlength, hmalformed, by omega⟩

/-- A request whose arguments are a number, before one that would be decided. -/
def numberText : String :=
  "\x7b\"chainId\":\"1\",\"type\":\"TRANSFER\",\"arguments\":5\x7d\n" ++
    "\x7b\"chainId\":\"1\",\"type\":\"TRANSFER\"\x7d"

/-- Arguments that cannot be gone through end a replay: there is no tally, and no decision on the
next line. -/
theorem numberText_lost : ∃ d f w', Document.parse strictText = .ok d ∧
    (entries ((Content.text numberText).lines.zipIdx 1)).length = 2 ∧
    (replay (.string "p") (.string "h") .null).perform (archive numberText) = (.error f, w') ∧
    w'.output = "" := by
  obtain ⟨htext, d, hd⟩ := parse_strictText
  obtain ⟨hpolicy, hhistory⟩ := read_archive numberText
  have hfates : (entries ((Content.text numberText).lines.zipIdx 1)).map (fate {} ·.1) =
      [.derails, .request ⟨"1", .transfer, none, none, none, none⟩] := by
    decide +kernel
  have hends := (leads_replay hpolicy htext hd hhistory none).ok_or_error
  generalize entries ((Content.text numberText).lines.zipIdx 1) = lines at hfates hends ⊢
  obtain ⟨first, rest, rfl, hfirst, hrest⟩ := List.map_eq_cons_iff.mp hfates
  obtain ⟨tally, w', hperform, -, hdone⟩ | ⟨f, w', hperform, hlost | ⟨hf, -⟩⟩ := hends
  · exact absurd hfirst (hdone.stays first List.mem_cons_self)
  · obtain ⟨before, entry, after, t', hlines, hderails, -, hbefore⟩ := hlost
    refine ⟨d, f, w', hd, by simpa using congrArg List.length hfates, hperform, ?_⟩
    cases before with
    | nil => exact hbefore.output
    | cons other before =>
      obtain ⟨rfl, -⟩ := List.cons.inj hlines
      exact absurd hfirst (hbefore.stays _ List.mem_cons_self)
  · cases hf

end Accounts

end Replay

end Allowance
