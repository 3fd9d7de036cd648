import Allowance.Proofs.Json.Numbers
import Allowance.Proofs.Json.Texts
import Mathlib.Data.List.Nodup

/-! # Values read back

A value is read back from its text, on one line or indented, if its numbers are, its objects name
no field twice and its brackets are not nested too deep. What is taken from the start of the text is
the value itself, and what is left there is just what followed.
-/

namespace Allowance.Json

open Text

/-- The values whose text is read back while `depth` brackets may still open. -/
inductive Legible : Nat → Json → Prop
  | null {depth : Nat} : Legible depth .null
  | bool {depth : Nat} {b : Bool} : Legible depth (.bool b)
  | number {depth : Nat} {n : Number} (h : n.Legible) : Legible depth (.number n)
  | string {depth : Nat} {s : String} : Legible depth (.string s)
  | array {depth : Nat} {items : List Json} (h : ∀ v ∈ items, Legible depth v) :
    Legible (depth + 1) (.array items)
  | object {depth : Nat} {fields : Fields} (hnames : (fields.map Prod.fst).Nodup)
    (h : ∀ field ∈ fields, Legible depth field.2) : Legible (depth + 1) (.object fields)

/-- A value is taken back from its text in every layout, whatever follows where it ends. -/
structure TakenBack (depth : Nat) (v : Json) : Prop where
  begins (layout : Layout) : Begins (written layout v).toList
  taken {half : Nat → Char} {layout : Layout} {fuel : Nat} {rest : List Char} (hrest : Ends rest)
    (hfuel : 2 * ((written layout v).toList ++ rest).length < fuel) :
    takeValue half depth fuel ((written layout v).toList ++ rest) = .ok (v, rest)

variable {v : Json} {c : Char} {cs rest : List Char} {half : Nat → Char} {depth fuel : Nat}
  {name : String} {items : List Json} {fields : Fields}

section Space

theorem skipSpace_of_begins (h : Begins cs) : skipSpace cs = cs := by
  obtain ⟨c, rest, rfl, hc, -, -⟩ := h
  have hne {d : Char} (hd : d.toNat ≤ 0x20) : c ≠ d := by
    rintro rfl
    omega
  simp [skipSpace, hne (d := ' ') (by decide), hne (d := '\t') (by decide),
    hne (d := '\n') (by decide), hne (d := '\r') (by decide)]

theorem skipSpace_append {space : List Char} (h : ∀ c ∈ space, c = ' ' ∨ c = '\n') :
    skipSpace (space ++ cs) = skipSpace cs := by
  apply List.dropWhile_append_of_pos
  intro c hc
  rcases h c hc with rfl | rfl <;> rfl

theorem lineBreak_space (layout : Layout) : ∀ c ∈ layout.lineBreak.toList, c = ' ' ∨ c = '\n' := by
  cases layout with
  | line => simp [Layout.lineBreak]
  | indented width level =>
    intro c hc
    rw [Layout.lineBreak, String.toList_ofList, List.mem_cons] at hc
    rcases hc with hc | hc
    · exact Or.inr hc
    · exact Or.inl (List.eq_of_mem_replicate hc)

theorem skipSpace_lineBreak (layout : Layout) (h : Begins cs) :
    skipSpace (layout.lineBreak.toList ++ cs) = cs :=
  (skipSpace_append (lineBreak_space layout)).trans (skipSpace_of_begins h)

theorem skipSpace_close (layout : Layout) (hc : c ∈ [']', '\x7d']) :
    skipSpace (layout.lineBreak.toList ++ c :: rest) = c :: rest := by
  rw [skipSpace_append (lineBreak_space layout)]
  simp only [List.mem_cons, List.not_mem_nil, or_false] at hc
  rcases hc with rfl | rfl <;> rfl

theorem ends_close (layout : Layout) (hc : c ∈ [']', '\x7d']) :
    Ends (layout.lineBreak.toList ++ c :: rest) := by
  cases layout with
  | line =>
    simp only [List.mem_cons, List.not_mem_nil, or_false] at hc
    rcases hc with rfl | rfl <;> exact ends_cons (by decide)
  | indented width level =>
    rw [Layout.lineBreak, String.toList_ofList]
    exact ends_cons (by decide)

theorem separator_toList (layout : Layout) :
    ∃ space, layout.separator.toList = ',' :: space ∧ ∀ c ∈ space, c = ' ' ∨ c = '\n' := by
  cases layout with
  | line => exact ⟨[' '], rfl, by simp⟩
  | indented width level =>
    refine ⟨(Layout.indented width level).lineBreak.toList, ?_, lineBreak_space _⟩
    simp [Layout.separator, String.toList_append]

theorem length_separator (layout : Layout) : 0 < layout.separator.toList.length := by
  obtain ⟨space, hspace, -⟩ := separator_toList layout
  simp [hspace]

theorem ends_separator (layout : Layout) : Ends (layout.separator.toList ++ rest) := by
  obtain ⟨space, hspace, -⟩ := separator_toList layout
  rw [hspace]
  exact ends_cons (by decide)

theorem skipSpace_separator (layout : Layout) (h : Begins cs) : ∃ rest,
    skipSpace (layout.separator.toList ++ cs) = ',' :: rest ∧ skipSpace rest = cs := by
  obtain ⟨space, hseparator, hspace⟩ := separator_toList layout
  refine ⟨space ++ cs, ?_, (skipSpace_append hspace).trans (skipSpace_of_begins h)⟩
  rw [hseparator]
  rfl

end Space

section Arrays

variable {layout outer : Layout}

def itemsText (layout outer : Layout) (v : Json) : List Json → List Char → List Char
  | [], rest => (written layout v).toList ++ (outer.lineBreak.toList ++ ']' :: rest)
  | w :: items, rest => (written layout v).toList ++
    (layout.separator.toList ++ itemsText layout outer w items rest)

theorem TakenBack.begins_itemsText (hv : TakenBack depth v) (layout outer : Layout)
    (items : List Json) (rest : List Char) : Begins (itemsText layout outer v items rest) := by
  cases items with
  | nil => exact begins_append (hv.begins layout) _
  | cons w items => exact begins_append (hv.begins layout) _

theorem written_array (outer : Layout) (v : Json) (items : List Json) (rest : List Char) :
    (written outer (.array (v :: items))).toList ++ rest =
      '[' :: (outer.deeper.lineBreak.toList ++ itemsText outer.deeper outer v items rest) := by
  have hitems : itemsText outer.deeper outer v items rest = (written outer.deeper v).toList ++
      ((writtenItems outer.deeper items).toList ++ (outer.lineBreak.toList ++ ']' :: rest)) := by
    induction items generalizing v with
    | nil => simp [itemsText, writtenItems]
    | cons w items ih => simp [itemsText, writtenItems, String.toList_append, ih]
  simp [hitems, written, String.toList_append]

/-- The items of an array are taken up to its bracket. -/
theorem takeItems_itemsText {seen : List Json} (hv : TakenBack depth v)
    (hitems : ∀ w ∈ items, TakenBack depth w)
    (hfuel : 2 * (itemsText layout outer v items rest).length + 1 < fuel) :
    takeItems half depth fuel seen (itemsText layout outer v items rest) =
      .ok (.array (seen.reverse ++ v :: items), rest) := by
  induction items generalizing v seen fuel with
  | nil =>
    obtain ⟨fuel, rfl⟩ := Nat.exists_eq_succ_of_ne_zero (Nat.ne_zero_of_lt hfuel)
    rw [itemsText] at hfuel ⊢
    rw [takeItems, hv.taken (ends_close outer (by decide)) (by omega)]
    simp [skipSpace_close outer]
  | cons w items ih =>
    obtain ⟨fuel, rfl⟩ := Nat.exists_eq_succ_of_ne_zero (Nat.ne_zero_of_lt hfuel)
    have hw := hitems w List.mem_cons_self
    obtain ⟨more, hcomma, hmore⟩ :=
      skipSpace_separator layout (hw.begins_itemsText layout outer items rest)
    rw [itemsText] at hfuel ⊢
    rw [takeItems, hv.taken (ends_separator layout) (by omega)]
    simp only [hcomma, hmore]
    rw [ih hw fun u hu => hitems u (List.mem_cons_of_mem _ hu)]
    · simp
    · have hseparator := length_separator layout
      simp only [List.length_append] at hfuel
      omega

theorem takeValue_bracket (h : skipSpace cs = rest) (hrest : Begins rest) :
    takeValue half (depth + 1) (fuel + 1) ('[' :: cs) = takeItems half depth fuel [] rest := by
  obtain ⟨c, tail, rfl, -, -, hc⟩ := hrest
  simp [takeValue, h, hc]

theorem takenBack_array (h : ∀ v ∈ items, TakenBack depth v) :
    TakenBack (depth + 1) (.array items) := by
  cases items with
  | nil =>
    have htext (layout : Layout) : (written layout (.array [])).toList = ['[', ']'] := by
      rw [written]
      rfl
    refine ⟨fun layout => ⟨'[', _, htext layout, by decide⟩,
      fun {half layout fuel rest} _ hfuel => ?_⟩
    obtain ⟨fuel, rfl⟩ := Nat.exists_eq_succ_of_ne_zero (Nat.ne_zero_of_lt hfuel)
    have hclose : skipSpace (']' :: rest) = ']' :: rest := rfl
    simp [htext, takeValue, hclose]
  | cons v items =>
    have hv := h v List.mem_cons_self
    refine ⟨fun outer => ⟨'[', _, by simpa using written_array outer v items [], by decide⟩,
      fun {half outer fuel rest} _ hfuel => ?_⟩
    obtain ⟨fuel, rfl⟩ := Nat.exists_eq_succ_of_ne_zero (Nat.ne_zero_of_lt hfuel)
    have hbegins := hv.begins_itemsText outer.deeper outer items rest
    rw [written_array] at hfuel ⊢
    simp only [List.length_append, List.length_cons] at hfuel
    rw [takeValue_bracket (skipSpace_lineBreak _ hbegins) hbegins,
      takeItems_itemsText hv fun w hw => h w (List.mem_cons_of_mem _ hw)]
    · rfl
    · omega

end Arrays

section Objects

variable {layout outer : Layout}

def fieldsText (layout outer : Layout) (name : String) (v : Json) : Fields → List Char → List Char
  | [], rest => (writtenText name).toList ++ ':' :: ' ' :: ((written layout v).toList ++
    (outer.lineBreak.toList ++ '\x7d' :: rest))
  | (next, w) :: fields, rest => (writtenText name).toList ++ ':' :: ' ' ::
    ((written layout v).toList ++ (layout.separator.toList ++
      fieldsText layout outer next w fields rest))

theorem begins_writtenText (name : String) : Begins (writtenText name).toList := by
  rw [toList_writtenText]
  exact ⟨'"', _, rfl, by decide⟩

theorem begins_fieldsText (layout outer : Layout) (name : String) (v : Json) (fields : Fields)
    (rest : List Char) : Begins (fieldsText layout outer name v fields rest) := by
  cases fields with
  | nil => exact begins_append (begins_writtenText name) _
  | cons field fields => exact begins_append (begins_writtenText name) _

theorem written_object (outer : Layout) (name : String) (v : Json) (fields : Fields)
    (rest : List Char) : (written outer (.object ((name, v) :: fields))).toList ++ rest =
      '\x7b' :: (outer.deeper.lineBreak.toList ++
        fieldsText outer.deeper outer name v fields rest) := by
  have hfields : fieldsText outer.deeper outer name v fields rest = (writtenText name).toList ++
      ':' :: ' ' :: ((written outer.deeper v).toList ++
        ((writtenFields outer.deeper fields).toList ++
          (outer.lineBreak.toList ++ '\x7d' :: rest))) := by
    induction fields generalizing name v with
    | nil => simp [fieldsText, writtenFields]
    | cons field fields ih =>
      obtain ⟨next, w⟩ := field
      simp [fieldsText, writtenFields, String.toList_append, ih,
        show ": ".toList = [':', ' '] from rfl]
  simp [hfields, written, String.toList_append, show ": ".toList = [':', ' '] from rfl]

theorem put_eq_append (h : name ∉ fields.map Prod.fst) :
    fields.put name v = fields ++ [(name, v)] := by
  induction fields with
  | nil => rfl
  | cons field fields ih =>
    rw [List.map_cons, List.mem_cons, not_or] at h
    rw [Fields.put, if_neg (Ne.symm h.1), ih h.2, List.cons_append]

theorem not_mem_of_nodup {seen : Fields}
    (h : ((seen ++ (name, v) :: fields).map Prod.fst).Nodup) : name ∉ seen.map Prod.fst := by
  rw [List.map_append, List.map_cons, List.nodup_middle, List.nodup_cons] at h
  exact fun hname => h.1 (List.mem_append_left _ hname)

theorem takeFields_field {seen : Fields} {after : List Char} {taken : Taken Json}
    (hseen : name ∉ seen.map Prod.fst) (hv : TakenBack depth v) (hafter : Ends after)
    (hfuel : 2 * ((written layout v).toList ++ after).length < fuel)
    (htaken : skipSpace after = '\x7d' :: rest ∧
        taken = .ok (.object (seen ++ [(name, v)]), rest) ∨
      skipSpace after = ',' :: rest ∧
        taken = takeFields half depth fuel (seen ++ [(name, v)]) (skipSpace rest)) :
    takeFields half depth (fuel + 1) seen ((writtenText name).toList ++ ':' :: ' ' ::
      ((written layout v).toList ++ after)) = taken := by
  have hcolon (cs : List Char) : skipSpace (':' :: cs) = ':' :: cs := rfl
  have hspace (cs : List Char) : skipSpace (' ' :: cs) = skipSpace cs := rfl
  have hbegins := skipSpace_of_begins (begins_append (hv.begins layout) after)
  rcases htaken with ⟨hclose, rfl⟩ | ⟨hcomma, rfl⟩
  · simp [toList_writtenText, takeFields, takeText_escaped, hcolon, hspace, hbegins,
      hv.taken hafter hfuel, put_eq_append hseen, hclose]
  · simp [toList_writtenText, takeFields, takeText_escaped, hcolon, hspace, hbegins,
      hv.taken hafter hfuel, put_eq_append hseen, hcomma]

theorem takeFields_fieldsText {seen : Fields} (hv : TakenBack depth v)
    (hfields : ∀ field ∈ fields, TakenBack depth field.2)
    (hnames : ((seen ++ (name, v) :: fields).map Prod.fst).Nodup)
    (hfuel : 2 * (fieldsText layout outer name v fields rest).length + 1 < fuel) :
    takeFields half depth fuel seen (fieldsText layout outer name v fields rest) =
      .ok (.object (seen ++ (name, v) :: fields), rest) := by
  induction fields generalizing name v seen fuel with
  | nil =>
    obtain ⟨fuel, rfl⟩ := Nat.exists_eq_succ_of_ne_zero (Nat.ne_zero_of_lt hfuel)
    simp only [fieldsText, List.length_append, List.length_cons] at hfuel
    refine takeFields_field (not_mem_of_nodup hnames) hv (ends_close outer (by decide)) ?_
      (Or.inl ⟨skipSpace_close outer (by decide), rfl⟩)
    simp only [List.length_append, List.length_cons]
    omega
  | cons field fields ih =>
    obtain ⟨fuel, rfl⟩ := Nat.exists_eq_succ_of_ne_zero (Nat.ne_zero_of_lt hfuel)
    obtain ⟨next, w⟩ := field
    obtain ⟨more, hcomma, hmore⟩ :=
      skipSpace_separator layout (begins_fieldsText layout outer next w fields rest)
    simp only [fieldsText, List.length_append, List.length_cons] at hfuel
    have hw : TakenBack depth w := hfields (next, w) List.mem_cons_self
    have hrest : takeFields half depth fuel (seen ++ [(name, v)])
        (fieldsText layout outer next w fields rest) =
          .ok (.object (seen ++ [(name, v)] ++ (next, w) :: fields), rest) :=
      ih hw (fun field hfield => hfields field (List.mem_cons_of_mem _ hfield))
        (by simpa using hnames) (by omega)
    refine takeFields_field (not_mem_of_nodup hnames) hv (ends_separator layout) ?_
      (Or.inr ⟨hcomma, ?_⟩)
    · simp only [List.length_append]
      omega
    · rw [hmore, hrest]
      simp

theorem takeValue_brace (h : skipSpace cs = fieldsText layout outer name v fields rest) :
    takeValue half (depth + 1) (fuel + 1) ('\x7b' :: cs) =
      takeFields half depth fuel [] (fieldsText layout outer name v fields rest) := by
  have hquote : ∃ tail, fieldsText layout outer name v fields rest = '"' :: tail := by
    cases fields <;> simp [fieldsText, toList_writtenText]
  obtain ⟨tail, htext⟩ := hquote
  rw [htext] at h ⊢
  simp [takeValue, h]

theorem takenBack_object (hnames : (fields.map Prod.fst).Nodup)
    (h : ∀ field ∈ fields, TakenBack depth field.2) : TakenBack (depth + 1) (.object fields) := by
  cases fields with
  | nil =>
    have htext (layout : Layout) : (written layout (.object [])).toList = ['\x7b', '\x7d'] := by
      rw [written]
      rfl
    refine ⟨fun layout => ⟨'\x7b', _, htext layout, by decide⟩,
      fun {half layout fuel rest} _ hfuel => ?_⟩
    obtain ⟨fuel, rfl⟩ := Nat.exists_eq_succ_of_ne_zero (Nat.ne_zero_of_lt hfuel)
    have hclose : skipSpace ('\x7d' :: rest) = '\x7d' :: rest := rfl
    simp [htext, takeValue, hclose]
  | cons field fields =>
    obtain ⟨name, v⟩ := field
    have hv : TakenBack depth v := h (name, v) List.mem_cons_self
    refine ⟨fun outer => ⟨'\x7b', _, by simpa using written_object outer name v fields [],
      by decide⟩, fun {half outer fuel rest} _ hfuel => ?_⟩
    obtain ⟨fuel, rfl⟩ := Nat.exists_eq_succ_of_ne_zero (Nat.ne_zero_of_lt hfuel)
    rw [written_object] at hfuel ⊢
    simp only [List.length_append, List.length_cons] at hfuel
    rw [takeValue_brace (skipSpace_lineBreak _ (begins_fieldsText ..)),
      takeFields_fieldsText hv (fun w hw => h w (List.mem_cons_of_mem _ hw)) hnames]
    · rfl
    · omega

end Objects

theorem takenBack_of_text (text : String) (htext : ∀ layout, written layout v = text)
    (hbegins : Begins text.toList)
    (htaken : ∀ {half : Nat → Char} {fuel : Nat} {rest : List Char}, Ends rest →
      takeValue half depth (fuel + 1) (text.toList ++ rest) = .ok (v, rest)) :
    TakenBack depth v := by
  refine ⟨fun layout => by rwa [htext], fun {half layout fuel rest} hrest hfuel => ?_⟩
  obtain ⟨fuel, rfl⟩ := Nat.exists_eq_succ_of_ne_zero (Nat.ne_zero_of_lt hfuel)
  rw [htext]
  exact htaken hrest

theorem takenBack_bool (b : Bool) : TakenBack depth (.bool b) := by
  cases b with
  | false =>
    refine takenBack_of_text "false" (fun _ => by simp [written]) ⟨'f', _, rfl, by decide⟩ ?_
    intro half fuel rest _
    rfl
  | true =>
    refine takenBack_of_text "true" (fun _ => by simp [written]) ⟨'t', _, rfl, by decide⟩ ?_
    intro half fuel rest _
    rfl

theorem Legible.takenBack (h : Legible depth v) : TakenBack depth v := by
  induction h with
  | null =>
    refine takenBack_of_text "null" (fun _ => by rw [written]) ⟨'n', _, rfl, by decide⟩ ?_
    intro half fuel rest _
    rfl
  | bool => exact takenBack_bool _
  | @number _ n h =>
    exact takenBack_of_text (writtenNumber n) (fun _ => by rw [written]) h.begins h.taken
  | @string _ s =>
    refine takenBack_of_text (writtenText s) (fun _ => by rw [written]) (begins_writtenText s) ?_
    intro half fuel rest _
    rw [toList_writtenText, List.cons_append, List.append_assoc]
    simp [takeValue, takeText_escaped, Except.map]
  | array h ih => exact takenBack_array ih
  | object hnames h ih => exact takenBack_object hnames ih

/-- A legible value is read back from its text, on one line or indented. -/
theorem Legible.read_write {reader : Reader} (h : Legible reader.depth v) (indent : Option Nat) :
    read (v.write indent) reader = .ok v := by
  have hbegins : Begins (v.write indent).toList := h.takenBack.begins _
  have hvalue : takeValue reader.half reader.depth (2 * (v.write indent).toList.length + 2)
      ((v.write indent).toList ++ []) = .ok (v, []) :=
    h.takenBack.taken ends_nil (by simp [write])
  rw [List.append_nil] at hvalue
  have hall : takeAll reader (v.write indent).toList = .ok v := by
    rw [takeAll, skipSpace_of_begins hbegins, hvalue]
    rfl
  have hmark : (v.write indent).toList.head? ≠ some (Char.ofNat 0xfeff) := by
    obtain ⟨c, rest, htext, -, hc, -⟩ := hbegins
    rw [htext]
    rintro ⟨⟩
    exact absurd hc (by decide)
  rw [read, if_neg hmark, hall]

end Allowance.Json
