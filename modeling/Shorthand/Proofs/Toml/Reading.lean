import Shorthand.Proofs.Text.Characters
import Shorthand.Proofs.Toml.Quoting
import Shorthand.Toml.Reader

/-! # Reading what is written

Keys, strings and arrays of strings are read back wherever they are written, and so is each line. Main
statements: a document is read line by line (`lines?_written`), and entries with different keys, in front of
headers and behind them, make the table of these entries (`foldlM_entryLines`, `foldlM_table`). -/

namespace Shorthand.Toml.Reader
open Quote (afterBreak?)

/-! ## Spaces and breaks -/

/-- Begins with something that is passed over nowhere: no space, break or comment. -/
def Starts (text : Text) : Prop := ∀ c ∈ text.head?, isSpace c = false ∧ isControl c = false ∧ c ≠ '#'

theorem Starts.dropSpace_eq {text : Text} (h : Starts text) : dropSpace text = text :=
  Text.dropWhile_eq_self fun c hc => (h c hc).1

theorem Starts.skipComment? {text : Text} (h : Starts text) : skipComment? text = some text := by
  unfold Reader.skipComment?
  split
  · exact absurd rfl (h _ rfl).2.2
  · rfl

theorem Starts.afterBreak? {text : Text} (h : Starts text) : afterBreak? text = none := by
  unfold Quote.afterBreak?
  split
  · cases (h _ rfl).2.1
  · cases (h _ rfl).2.1
  · rfl

theorem Starts.skipLines? {text : Text} (h : Starts text) (fuel : Nat) :
    skipLines? (fuel + 1) text = some text := by
  simp [Reader.skipLines?, h.dropSpace_eq, h.skipComment?, h.afterBreak?]

theorem Starts.dropLines? {text : Text} (h : Starts text) : dropLines? text = some text :=
  h.skipLines? _

/-- A break and the spaces on the next line are passed over. -/
theorem Starts.dropLines?_break {text : Text} (h : Starts text) {indent : Text}
    (hindent : ∀ c ∈ indent, isSpace c = true) : Reader.dropLines? ('\n' :: (indent ++ text)) = some text := by
  have hspace : dropSpace (indent ++ text) = text :=
    (Text.takeWhile_append_dropWhile hindent fun c hc => (h c hc).1).2
  change Reader.skipLines? (List.length (indent ++ text) + 1) (indent ++ text) = some text
  simp [Reader.skipLines?, hspace, h.skipComment?, h.afterBreak?]

/-! ## Keys -/

theorem isBareKeyChar_of_isControl {c : Char} (h : isControl c = true) : isBareKeyChar c = false :=
  Quote.forall_isControl (P := fun c => isBareKeyChar c = false) (by decide) h

/-- A key begins with a quote or with a character of keys without quotes. -/
theorem exists_key (key : Text) : ∃ c text, Writer.key key = c :: text ∧
    (isBareKeyChar c = true ∨ c = '"' ∨ c = '\'') := by
  unfold Writer.key
  split
  · rename_i hbare
    rw [Bool.and_eq_true] at hbare
    cases key with
    | nil => cases hbare.1
    | cons c key => exact ⟨c, key, rfl, .inl (List.all_eq_true.1 hbare.2 c List.mem_cons_self)⟩
  · rcases Quote.keyForm_cases key with h | h
    · rw [h]
      exact ⟨'"', _, rfl, .inr (.inl rfl)⟩
    · rw [h]
      exact ⟨'\'', _, rfl, .inr (.inr rfl)⟩

theorem starts_key (key rest : Text) :
    Starts (Writer.key key ++ rest) ∧ ∀ c ∈ (Writer.key key ++ rest).head?, c ≠ '[' := by
  obtain ⟨c, text, hkey, hc⟩ := exists_key key
  have hstart : isSpace c = false ∧ isControl c = false ∧ c ≠ '#' ∧ c ≠ '[' := by
    rcases hc with hc | rfl | rfl
    · have hmarks : ∀ m, isBareKeyChar m = false → c ≠ m := by
        rintro m hm rfl
        simp [hm] at hc
      have hcontrol : isControl c = false := by
        rw [Bool.eq_false_iff]
        intro h
        simp [isBareKeyChar_of_isControl h] at hc
      exact ⟨by simp [isSpace, hmarks ' ' rfl, hmarks '\t' rfl], hcontrol, hmarks '#' rfl, hmarks '[' rfl⟩
    · simp [isSpace, isControl]
    · simp [isSpace, isControl]
  obtain ⟨hspace, hcontrol, hcomment, hopen⟩ := hstart
  rw [hkey]
  refine ⟨?_, ?_⟩
  · rintro d ⟨⟩
    exact ⟨hspace, hcontrol, hcomment⟩
  · rintro d ⟨⟩
    exact hopen

theorem simpleKey?_key (key : Text) {rest : Text} (hrest : ∀ c ∈ rest.head?, isBareKeyChar c = false) :
    simpleKey? (Writer.key key ++ rest) = some (key, rest) := by
  unfold Writer.key
  split
  · rename_i hbare
    rw [Bool.and_eq_true, Bool.not_eq_true'] at hbare
    obtain ⟨htake, hdrop⟩ := Text.takeWhile_append_dropWhile (List.all_eq_true.1 hbare.2) hrest
    unfold simpleKey?
    split
    · rename_i hnil
      rw [htake] at hnil
      rw [hnil] at hbare
      cases hbare.1
    · rw [htake, hdrop]
  · have hread := Quote.singleLine?_keyForm key rest
    have hquote : (Writer.inForm (Writer.keyForm key) key ++ rest).takeWhile isBareKeyChar = [] := by
      rcases Quote.keyForm_cases key with h | h <;> rw [h] <;> rfl
    unfold simpleKey?
    split
    · exact hread
    · contradiction

/-- A key without dots is read back, and the spaces after it are passed over. -/
theorem key?_key (key : Text) {rest : Text} (hrest : ∀ c ∈ rest.head?, isBareKeyChar c = false)
    (hdot : ∀ c ∈ (dropSpace rest).head?, c ≠ '.') :
    key? (Writer.key key ++ rest) = some ([key], dropSpace rest) := by
  have hparts : ∀ fuel, keyParts? (fuel + 1) (Writer.key key ++ rest) = some ([key], dropSpace rest) := by
    intro fuel
    rw [keyParts?, (starts_key key rest).1.dropSpace_eq, simpleKey?_key key hrest]
    simp only [bind, Option.bind]
    split
    · rename_i hdots
      exact absurd rfl (hdot '.' (hdots ▸ rfl))
    · rfl
  rw [key?, hparts]
  rfl

/-! ## Values -/

/-- The text writes the value: a value begins with it, and this value is read back wherever no quote
follows. -/
structure Writes (depth : Nat) (text : Text) (value : Value) : Prop where
  starts : ∀ rest, Starts (text ++ rest)
  read : ∀ {rest : Text}, (∀ c ∈ rest.head?, c ≠ '"' ∧ c ≠ '\'') →
    value? depth (text ++ rest) = some (value, rest)

theorem exists_string (s : Text) : ∃ c text, Writer.string s = c :: text ∧ (c = '"' ∨ c = '\'') := by
  unfold Writer.string
  cases Writer.form s with
  | basic => exact ⟨_, _, rfl, .inl rfl⟩
  | literal => exact ⟨_, _, rfl, .inr rfl⟩
  | multilineBasic => exact ⟨_, _, rfl, .inl rfl⟩
  | multilineLiteral => exact ⟨_, _, rfl, .inr rfl⟩

theorem writes_string (depth : Nat) (s : Text) : Writes depth (Writer.string s) (.string s) where
  starts rest := by
    obtain ⟨c, text, hs, hc⟩ := exists_string s
    rw [hs]
    rintro d ⟨⟩
    rcases hc with rfl | rfl <;> simp [isSpace, isControl]
  read {rest} hrest := by
    have hread := Quote.string?_string s hrest
    obtain ⟨c, text, hs, hc⟩ := exists_string s
    rw [hs, List.cons_append] at hread ⊢
    unfold value?
    split
    · cases ‹c :: (text ++ rest) = _›
      rcases hc with hc | hc <;> cases hc
    · cases ‹c :: (text ++ rest) = _›
      rcases hc with hc | hc <;> cases hc
    · rw [hread]

theorem items?_item {value? : ValueReader} {text start rest : Text} {item : Value} (fuel : Nat)
    (hstart : dropLines? text = some start) (hopen : ∀ c ∈ start.head?, c ≠ ']')
    (hitem : value? start = some (item, rest)) : items? value? (fuel + 1) text =
      (dropLines? rest).bind fun rest =>
        match rest with
        | ',' :: rest => (items? value? fuel rest).map fun (items, rest) => (item :: items, rest)
        | ']' :: rest => some ([item], rest)
        | _ => none := by
  rw [items?, hstart]
  simp only [bind, Option.bind]
  split
  · exact absurd rfl (hopen _ rfl)
  · exact hitem ▸ rfl

def itemLine (item : Text) : Text := "    ".toList ++ Writer.string item ++ [',', '\n']

theorem head?_string (item rest : Text) : ∀ c ∈ (Writer.string item ++ rest).head?, c ≠ ']' := by
  obtain ⟨c, text, hs, hc⟩ := exists_string item
  rw [hs]
  rintro d ⟨⟩
  rcases hc with rfl | rfl <;> simp

/-- The items of an array, each on a line of its own. -/
theorem items?_lines (depth : Nat) (items : List Text) (rest : Text) : ∀ fuel : Nat,
    ('\n' :: (items.flatMap itemLine ++ ']' :: rest)).length < fuel →
      items? (value? depth) fuel ('\n' :: (items.flatMap itemLine ++ ']' :: rest)) =
        some (items.map .string, rest) := by
  induction items with
  | nil =>
    intro fuel hfuel
    cases fuel with
    | zero => exact absurd hfuel (Nat.not_lt_zero _)
    | succ fuel => rfl
  | cons item items ih =>
    intro fuel hfuel
    cases fuel with
    | zero => exact absurd hfuel (Nat.not_lt_zero _)
    | succ fuel =>
      have hwrites := writes_string depth item
      have hline : (item :: items).flatMap itemLine ++ ']' :: rest =
          "    ".toList ++ (Writer.string item ++ ',' :: '\n' :: (items.flatMap itemLine ++ ']' :: rest)) := by
        simp [itemLine]
      rw [hline] at hfuel ⊢
      have hshorter : ('\n' :: (items.flatMap itemLine ++ ']' :: rest)).length < fuel := by
        simp only [List.length_cons, List.length_append] at hfuel ⊢
        omega
      have hindent : ∀ c ∈ "    ".toList, isSpace c = true := Text.forall_mem_of_all (by decide)
      rw [items?_item fuel ((hwrites.starts _).dropLines?_break hindent) (head?_string item _)
        (hwrites.read (by simp))]
      change (items? (value? depth) fuel _).map _ = _
      rw [ih fuel hshorter]
      rfl

/-- **An array of strings is read back.** -/
theorem writes_array (depth : Nat) (items : List Text) :
    Writes (depth + 1) (Writer.array items) (.array false (items.map .string)) where
  starts rest := by
    have hopen : ∃ text, Writer.array items = '[' :: text := by
      unfold Writer.array
      split <;> exact ⟨_, rfl⟩
    obtain ⟨text, htext⟩ := hopen
    rw [htext]
    rintro d ⟨⟩
    simp [isSpace, isControl]
  read {rest} _ := by
    have hitems : ∃ text, Writer.array items ++ rest = '[' :: text ∧
        items? (value? depth) (text.length + 1) text = some (items.map .string, rest) := by
      unfold Writer.array
      split
      · exact ⟨']' :: rest, rfl, rfl⟩
      · rename_i item
        have hwrites := writes_string depth item
        refine ⟨Writer.string item ++ ']' :: rest, by simp, ?_⟩
        rw [items?_item _ (hwrites.starts _).dropLines? (head?_string item _) (hwrites.read (by simp))]
        rfl
      · refine ⟨'\n' :: (items.flatMap itemLine ++ ']' :: rest), ?_, ?_⟩
        · change '[' :: '\n' :: items.flatMap itemLine ++ [']'] ++ rest = _
          simp
        · exact items?_lines depth items rest _ (Nat.lt_succ_self _)
    obtain ⟨text, htext, hread⟩ := hitems
    rw [htext, value?, hread]
    rfl

/-! ## Lines -/

/-- The text is the line: it is read as this line, what follows it is left, and no byte order mark comes
first. -/
structure WritesLine (text : Text) (line : Line) : Prop where
  ne_nil : text ≠ []
  unmarked : ∀ c ∈ text.head?, c ≠ '\ufeff'
  read : ∀ rest, line? (text ++ rest) = some (line, rest)

theorem writesLine_blank : WritesLine ['\n'] .blank where
  ne_nil := nofun
  unmarked := by rintro c ⟨⟩; decide
  read _ := rfl

theorem writesLine_header (name : Text) : WritesLine (Writer.header name) (.header false [name]) where
  ne_nil := nofun
  unmarked := by rintro c ⟨⟩; decide
  read rest := by
    have hopen := (starts_key name (']' :: '\n' :: rest)).2
    have hkey : key? (Writer.key name ++ ']' :: '\n' :: rest) = some ([name], ']' :: '\n' :: rest) :=
      key?_key name (by rintro c ⟨⟩; rfl) (by simp [dropSpace, isSpace])
    have hline : dropSpace (Writer.header name ++ rest) = '[' :: (Writer.key name ++ ']' :: '\n' :: rest) := by
      change '[' :: (Writer.key name ++ [']', '\n'] ++ rest) = _
      simp
    unfold line?
    rw [hline]
    split
    · rename_i harray
      exact absurd rfl (hopen '[' (by rw [(List.cons.inj harray).2]; rfl))
    · rename_i hheader
      rw [← (List.cons.inj hheader).2, hkey]
      rfl
    · rename_i hother
      exact absurd rfl (hother _)

/-- A key and its value are read back before a break. -/
theorem entry?_entry {value : Text} {v : Value} (h : Writes maxDepth value v) (name rest : Text) :
    entry? (some <| dropSpace ·) (value? maxDepth) (Writer.entry name value ++ rest) =
      some ([name], v, '\n' :: rest) := by
  have hentry : Writer.entry name value ++ rest =
      Writer.key name ++ ' ' :: '=' :: ' ' :: (value ++ '\n' :: rest) := by
    simp [Writer.entry]
  have hkey : key? (Writer.key name ++ ' ' :: '=' :: ' ' :: (value ++ '\n' :: rest)) =
      some ([name], '=' :: ' ' :: (value ++ '\n' :: rest)) :=
    key?_key name (by rintro c ⟨⟩; rfl) (by simp [dropSpace, isSpace])
  have hspace : dropSpace (' ' :: (value ++ '\n' :: rest)) = value ++ '\n' :: rest := (h.starts _).dropSpace_eq
  have hvalue : value? maxDepth (value ++ '\n' :: rest) = some (v, '\n' :: rest) := h.read (by simp)
  rw [hentry, entry?, hkey]
  change ((value? maxDepth (dropSpace (' ' :: (value ++ '\n' :: rest)))).bind fun p => some ([name], p.1, p.2)) = _
  rw [hspace, hvalue]
  rfl

theorem writesLine_entry {value : Text} {v : Value} (h : Writes maxDepth value v) (name : Text) :
    WritesLine (Writer.entry name value) (.entry [name] v) where
  ne_nil := by simp [Writer.entry]
  unmarked := by
    obtain ⟨c, text, hkey, hc⟩ := exists_key name
    rw [Writer.entry, hkey]
    rintro d ⟨⟩ rfl
    revert hc
    decide
  read rest := by
    have hread := entry?_entry h name rest
    have hkey : ∃ after, Writer.entry name value ++ rest = Writer.key name ++ after := ⟨_, by
      rw [Writer.entry, List.append_assoc, List.append_assoc, List.append_assoc]⟩
    obtain ⟨after, hafter⟩ := hkey
    obtain ⟨hstarts, hopen⟩ := starts_key name after
    rw [hafter] at hread ⊢
    have hentry : (List.isEmpty (Writer.key name ++ after) ||
        List.head? (Writer.key name ++ after) == some '#' ||
        (afterBreak? (Writer.key name ++ after)).isSome) = false := by
      obtain ⟨c, text, hc, -⟩ := exists_key name
      rw [hstarts.afterBreak?]
      rw [hc] at hstarts ⊢
      simpa using (hstarts c rfl).2.2
    unfold line?
    rw [hstarts.dropSpace_eq]
    split
    · rename_i harray
      exact absurd rfl (hopen '[' (by rw [harray]; rfl))
    · rename_i hheader
      exact absurd rfl (hopen '[' (by rw [hheader]; rfl))
    · rw [hentry, hread]
      rfl

/-- **The lines of a document are read back.** -/
theorem lines?_written {ps : List (Text × Line)} (h : ∀ p ∈ ps, WritesLine p.1 p.2) : ∀ {fuel : Nat},
    (ps.flatMap (·.1)).length ≤ fuel → lines? fuel (ps.flatMap (·.1)) = some (ps.map (·.2)) := by
  induction ps with
  | nil =>
    intro fuel _
    cases fuel <;> rfl
  | cons p ps ih =>
    intro fuel hfuel
    have hp := h p List.mem_cons_self
    have hread := hp.read (ps.flatMap (·.1))
    obtain ⟨c, text, hcons⟩ := List.exists_cons_of_ne_nil hp.ne_nil
    rw [List.flatMap_cons, hcons, List.cons_append] at hfuel ⊢
    rw [hcons, List.cons_append] at hread
    rw [List.length_cons, List.length_append] at hfuel
    cases fuel with
    | zero => exact absurd hfuel (Nat.not_succ_le_zero _)
    | succ fuel =>
      have hrest := ih (fun q hq => h q (List.mem_cons_of_mem p hq)) (show _ ≤ fuel by omega)
      have hfirst : lines? (fuel + 1) (c :: (text ++ ps.flatMap (·.1))) =
          (lines? fuel (ps.flatMap (·.1))).bind fun lines => some (p.2 :: lines) := by
        rw [lines?, hread]
        · rfl
        · exact nofun
      rw [hfirst, hrest]
      rfl

end Shorthand.Toml.Reader

/-! ## Tables -/

namespace Shorthand.Toml.Table

theorem lookup_append {key : Text} {front : List (Text × Value)} (h : ∀ e ∈ front, e.1 ≠ key)
    (rest : List (Text × Value)) : (front ++ rest).lookup key = rest.lookup key := by
  have hnone : front.lookup key = none := by
    rw [List.lookup_eq_none_iff]
    exact fun e he => by simpa using (h e he).symm
  rw [List.lookup_append, hnone, Option.none_or]

theorem assign_append {key : Text} {front : List (Text × Value)} (h : ∀ e ∈ front, e.1 ≠ key) (value : Value)
    (rest : List (Text × Value)) : assign key value (front ++ rest) = front ++ assign key value rest := by
  induction front with
  | nil => rfl
  | cons e front ih =>
    rw [List.cons_append, assign, if_neg (h e List.mem_cons_self),
      ih fun f hf => h f (List.mem_cons_of_mem e hf)]
    rfl

variable {key name : Text} {es front : List (Text × Value)}

/-- An entry with a new key stands at the end of its table. -/
theorem addEntry_headed (h : ∀ e ∈ es, e.1 ≠ key) (value : Value) :
    addEntry [key] value ⟨.headed, es⟩ = some ⟨.headed, es ++ [(key, value)]⟩ := by
  have hlookup := lookup_append h []
  have hassign := assign_append h value []
  rw [List.append_nil] at hlookup hassign
  change (if (es.lookup key).isSome = true then none else some (Table.mk .headed (assign key value es))) = _
  rw [hlookup, hassign]
  rfl

/-- So does one below the header of the last table. -/
theorem addEntryBelow_header (hname : ∀ e ∈ front, e.1 ≠ name) (h : ∀ e ∈ es, e.1 ≠ key) (value : Value) :
    addEntryBelow [name] [key] value ⟨.headed, front ++ [(name, .table .headed es)]⟩ =
      some ⟨.headed, front ++ [(name, .table .headed (es ++ [(key, value)]))]⟩ := by
  have hget : (Table.mk .headed (front ++ [(name, .table .headed es)])).get? name = some (.table .headed es) :=
    (lookup_append hname _).trans (by rw [List.lookup_cons, beq_self_eq_true])
  have hput : assign name (.table .headed (es ++ [(key, value)])) (front ++ [(name, .table .headed es)]) =
      front ++ [(name, .table .headed (es ++ [(key, value)]))] := by
    rw [assign_append hname, assign, if_pos rfl]
  rw [addEntryBelow, changeAt, hget]
  change (changeAt false (addEntry [key] value) [] ⟨.headed, es⟩).map _ = _
  rw [changeAt, addEntry_headed h]
  change some (Table.mk _ (assign name _ _)) = _
  rw [hput]

/-- The header of a new table opens it at the end. -/
theorem addHeader_new (h : ∀ e ∈ es, e.1 ≠ name) :
    addHeader false [name] ⟨.headed, es⟩ = some ⟨.headed, es ++ [(name, .table .headed [])]⟩ := by
  have hlookup := lookup_append h []
  have hassign := assign_append h (.table .headed []) []
  rw [List.append_nil] at hlookup hassign
  have hget : (Table.mk .headed es).get? name = none := hlookup
  change openTable name ⟨.headed, es⟩ = _
  rw [openTable, hget]
  change some (Table.mk _ (assign name _ _)) = _
  rw [hassign]
  rfl

end Shorthand.Toml.Table

namespace Shorthand.Toml.Reader

def entryLines (es : List (Text × Value)) : List Line := es.map fun e => .entry [e.1] e.2

/-- Entries with new keys are added to a table one after the other, if each can be added at the end. -/
theorem foldlM_entryLines (table : List (Text × Value) → Table) (header : List Text)
    (hstep : ∀ {es : List (Text × Value)} {key : Text}, (∀ e ∈ es, e.1 ≠ key) → ∀ value,
      (table es).addEntryBelow header [key] value = some (table (es ++ [(key, value)])))
    {news : List (Text × Value)} : ∀ es : List (Text × Value), ((es ++ news).map (·.1)).Nodup →
      (entryLines news).foldlM Progress.add? ⟨table es, header⟩ = some ⟨table (es ++ news), header⟩ := by
  induction news with
  | nil =>
    intro es _
    rw [List.append_nil]
    rfl
  | cons e news ih =>
    intro es h
    have hall : es ++ e :: news = (es ++ [e]) ++ news := by simp
    have hnew : ∀ f ∈ es, f.1 ≠ e.1 := by
      rw [List.map_append, List.nodup_append] at h
      exact fun f hf => h.2.2 f.1 (List.mem_map_of_mem hf) e.1 (by simp)
    rw [hall] at h ⊢
    rw [entryLines, List.map_cons, List.foldlM_cons, Progress.add?, hstep hnew]
    exact ih _ h

/-- A header with a new name and the entries below it add a table at the end. -/
theorem foldlM_table {front es : List (Text × Value)} {name : Text} (hname : ∀ e ∈ front, e.1 ≠ name)
    (hes : (es.map (·.1)).Nodup) (header : List Text) :
    (Line.header false [name] :: entryLines es).foldlM Progress.add? ⟨⟨.headed, front⟩, header⟩ =
      some ⟨⟨.headed, front ++ [(name, .table .headed es)]⟩, [name]⟩ := by
  have hheader : Progress.add? ⟨⟨.headed, front⟩, header⟩ (.header false [name]) =
      some ⟨⟨.headed, front ++ [(name, .table .headed [])]⟩, [name]⟩ := by
    rw [Progress.add?, Table.addHeader_new hname]
    rfl
  rw [List.foldlM_cons, hheader]
  exact foldlM_entryLines (fun es => ⟨.headed, front ++ [(name, .table .headed es)]⟩) [name]
    (fun h value => Table.addEntryBelow_header hname h value) [] hes

/-- The table of a document whose lines are known. -/
theorem document?_written {ps : List (Text × Line)} (h : ∀ p ∈ ps, WritesLine p.1 p.2) :
    document? (ps.flatMap (·.1)) = ((ps.map (·.2)).foldlM Progress.add? {}).map (·.table) := by
  have hplain : dropMark (ps.flatMap (·.1)) = ps.flatMap (·.1) := by
    unfold dropMark
    split
    · rename_i text heq
      cases ps with
      | nil => cases heq
      | cons p ps =>
        obtain ⟨hne, hunmarked, -⟩ := h p List.mem_cons_self
        obtain ⟨c, rest, hcons⟩ := List.exists_cons_of_ne_nil hne
        rw [List.flatMap_cons, hcons, List.cons_append] at heq
        exact absurd (List.cons.inj heq).1 (hunmarked c (hcons ▸ rfl))
    · rfl
  rw [document?, hplain, lines?_written h (Nat.le_succ _)]
  cases hfold : (ps.map (·.2)).foldlM Progress.add? {} <;> simp [hfold]

end Shorthand.Toml.Reader
