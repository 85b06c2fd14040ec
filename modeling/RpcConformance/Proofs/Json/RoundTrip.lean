import RpcConformance.Json.Lemmas
import RpcConformance.Json.Reader
/-!
Documents are read back as they were written, whatever may follow them (`Reads`): texts, and arrays and objects of what
is read so (`reads_text`, `reads_array`, `reads_ofMembers`), so all documents of these (`Written`, `parse?_render`). One
that was cut off is not read at all (`parse?_cut`).
-/
namespace RpcConformance.Json

def spelled (member : String × Json) : Bytes × Json := (escape member.1, member.2)

theorem ofMembers_eq (members : List (String × Json)) : ofMembers members = .object (members.map spelled) := rfl

theorem length_le_escape (s : String) : (Bytes.ofString s).length ≤ (escape s).length := by
  have hbyte (b : UInt8) : 1 ≤ (escapeByte b).length := by
    unfold escapeByte
    repeat' split
    all_goals exact Nat.succ_le_succ (Nat.zero_le _)
  rw [escape]
  induction Bytes.ofString s with
  | nil => exact Nat.le_refl 0
  | cons b bs ih =>
    rw [List.flatMap_cons, List.length_append, List.length_cons]
    have := hbyte b
    omega

theorem length_render_le_renderMembers {members : List (Bytes × Json)} {member : Bytes × Json} (h : member ∈ members) :
    member.2.render.length ≤ (renderMembers members).length := by
  induction members with
  | nil => cases h
  | cons first rest ih =>
    cases rest with
    | nil =>
      rw [List.mem_singleton.1 h]
      simp only [renderMembers, List.length_append]
      omega
    | cons second rest =>
      simp only [renderMembers, List.length_append, List.length_cons]
      rcases List.mem_cons.1 h with rfl | hrest
      · omega
      · have := ih hrest
        omega

theorem length_render_le {members : List (String × Json)} {member : String × Json} (h : member ∈ members) :
    member.2.render.length ≤ (ofMembers members).render.length := by
  have hmember := length_render_le_renderMembers (List.mem_map_of_mem (f := spelled) h)
  rw [ofMembers_eq, render, List.length_append, List.length_cons]
  exact Nat.le_add_right_of_le (Nat.le_succ_of_le hmember)

/-- The documents made of texts, arrays and objects with texts for keys. -/
inductive Written : Json → Prop
  | text (s : String) : Written (.text s)
  | array {items : List Json} (h : ∀ item ∈ items, Written item) : Written (.array items)
  | object {members : List (String × Json)} (h : ∀ member ∈ members, Written member.2) :
      Written (.ofMembers members)

theorem skipBlank_of_token {b : UInt8} (h : isBlank b = false) (rest : Bytes) :
    skipBlank (b :: rest) = b :: rest := by
  rw [skipBlank, List.dropWhile_cons_of_neg (by simp [h])]

theorem codeUnit?_of_ne {e : UInt8} (h : e ≠ 0x75) (rest : Bytes) : codeUnit? (e :: rest) = none := by
  unfold codeUnit?
  split
  · rename_i heq
    simp_all
  · rfl

theorem escapeLength?_of_simple {e b : UInt8} (he : e ≠ 0x75) (h : simpleEscape? e = some b) (rest : Bytes) :
    escapeLength? (e :: rest) = some 1 := by
  simp [escapeLength?, codeUnit?_of_ne he, h]

theorem readString_escapeByte (read : Bytes) (b : UInt8) (rest : Bytes) :
    readString read (escapeByte b ++ rest) = readString ((escapeByte b).reverse ++ read) rest := by
  have simple {e : UInt8} (he : e ≠ 0x75) (h : simpleEscape? e = some b) :
      readString read ([0x5c, e] ++ rest) = readString ([0x5c, e].reverse ++ read) rest := by
    simp [readString, escapeLength?_of_simple he h]
  rw [escapeByte]
  repeat' split
  any_goals simp_all only [beq_iff_eq]
  any_goals exact simple (by decide) (by decide)
  · rename_i hb
    simp [readString, escapeLength?, codeUnit?_hexDigits hb]
  · simp [readString, *]

theorem readString_escapeBytes (read bs rest : Bytes) :
    readString read (bs.flatMap escapeByte ++ rest) =
      readString ((bs.flatMap escapeByte).reverse ++ read) rest := by
  induction bs generalizing read with
  | nil => rfl
  | cons b bs ih =>
    rw [List.flatMap_cons, List.append_assoc, readString_escapeByte, ih, List.reverse_append,
      List.append_assoc]

theorem readString_escape (s : String) (rest : Bytes) :
    readString [] (escape s ++ 0x22 :: rest) = some (escape s, rest) := by
  rw [escape, readString_escapeBytes, readString]
  simp

theorem codeUnit?_append {bs : Bytes} {n : Nat} (h : codeUnit? bs = some n) (more : Bytes) :
    5 ≤ bs.length ∧ codeUnit? (bs ++ more) = some n := by
  unfold codeUnit? at h
  split at h
  · exact ⟨by simp, h⟩
  · cases h

theorem escapeLength?_append {bs : Bytes} {taken : Nat} (h : escapeLength? bs = some taken) (more : Bytes) :
    taken ≤ bs.length ∧ escapeLength? (bs ++ more) = some taken := by
  unfold escapeLength? at h
  split at h
  · rename_i n hunit
    obtain ⟨hlength, hunit'⟩ := codeUnit?_append hunit more
    cases h
    exact ⟨hlength, by simp [escapeLength?, hunit']⟩
  · cases bs with
    | nil => cases h
    | cons e bs =>
      obtain ⟨b, hb, rfl⟩ := Option.map_eq_some_iff.1 h
      have he : e ≠ 0x75 := by
        rintro rfl
        cases hb
      exact ⟨by simp, escapeLength?_of_simple he hb _⟩

theorem readString_append {read bs spelling rest : Bytes} (h : readString read bs = some (spelling, rest))
    (more : Bytes) : readString read (bs ++ more) = some (spelling, rest ++ more) := by
  fun_induction readString read bs with
  | case1 => cases h
  | case2 read b bs hquote =>
    cases h
    simp [readString, hquote]
  | case3 read b bs hquote hescape taken htaken ih =>
    obtain ⟨hlength, htaken'⟩ := escapeLength?_append htaken more
    have hih := ih h
    rw [List.cons_append, readString]
    simp only [hquote, hescape, htaken', if_true, Bool.false_eq_true, if_false]
    rw [List.take_append_of_le_length hlength, List.drop_append_of_le_length hlength]
    exact hih
  | case4 => cases h
  | case5 => cases h
  | case6 read b bs hquote hescape hcontrol ih =>
    rw [List.cons_append, readString]
    simp only [hquote, hescape, hcontrol, Bool.false_eq_true, if_false]
    exact ih h

/-- A reader that was given no more than the beginning of something either fails or finds `value`, with
what of `tail` it was given. -/
def Finds {α : Type} (result : Option (α × Bytes)) (value : α) (more tail : Bytes) : Prop :=
  result = none ∨ ∃ rest, result = some (value, rest) ∧ rest ++ more = tail

theorem readString_finds {s : String} {bs more tail : Bytes} (h : bs ++ more = escape s ++ 0x22 :: tail) :
    Finds (readString [] bs) (escape s) more tail := by
  cases hread : readString [] bs with
  | none => exact .inl rfl
  | some found =>
    obtain ⟨spelling, rest⟩ := found
    have hwhole := readString_append hread more
    rw [h, readString_escape] at hwhole
    simp only [Option.some.injEq, Prod.mk.injEq] at hwhole
    exact .inr ⟨rest, by rw [hwhole.1], hwhole.2.symm⟩

/-- A document begins with a token that is neither blank nor the end of an array. -/
def Begins (json : Json) : Prop := ∃ b rest, json.render = b :: rest ∧ isBlank b = false ∧ b ≠ 0x5d

theorem begins_ofMembers (members : List (String × Json)) : Begins (ofMembers members) :=
  ⟨0x7b, _, rfl, by decide, by decide⟩

theorem Written.begins {json : Json} (h : Written json) : Begins json := by
  cases h with
  | text s => exact ⟨0x22, _, rfl, by decide, by decide⟩
  | array => exact ⟨0x5b, _, rfl, by decide, by decide⟩
  | object => exact begins_ofMembers _

theorem renderItems_cons (item next : Json) (items : List Json) :
    renderItems (item :: next :: items) = render item ++ 0x2c :: renderItems (next :: items) := rfl

def afterItem (fuel : Nat) (read : List Json) (bs : Bytes) : Option (Json × Bytes) :=
  match skipBlank bs with
  | 0x2c :: rest => readItems fuel read rest
  | 0x5d :: rest => some (.array read.reverse, rest)
  | _ => none

theorem afterItem_nil (fuel : Nat) (read : List Json) : afterItem fuel read [] = none := rfl

theorem afterItem_comma (fuel : Nat) (read : List Json) (rest : Bytes) :
    afterItem fuel read (0x2c :: rest) = readItems fuel read rest := rfl

theorem afterItem_end (fuel : Nat) (read : List Json) (rest : Bytes) :
    afterItem fuel read (0x5d :: rest) = some (.array read.reverse, rest) := rfl

theorem readItems_item {fuel : Nat} {item : Json} {bs rest : Bytes} (h : readValue fuel bs = some (item, rest))
    (read : List Json) : readItems (fuel + 1) read bs = afterItem fuel (item :: read) rest := by
  rw [readItems, h]
  rfl

def afterMember (fuel : Nat) (read : List (Bytes × Json)) (bs : Bytes) : Option (Json × Bytes) :=
  match skipBlank bs with
  | 0x2c :: rest => readMembers fuel read rest
  | 0x7d :: rest => some (.object read.reverse, rest)
  | _ => none

theorem afterMember_nil (fuel : Nat) (read : List (Bytes × Json)) : afterMember fuel read [] = none := rfl

theorem afterMember_comma (fuel : Nat) (read : List (Bytes × Json)) (rest : Bytes) :
    afterMember fuel read (0x2c :: rest) = readMembers fuel read rest := rfl

theorem afterMember_end (fuel : Nat) (read : List (Bytes × Json)) (rest : Bytes) :
    afterMember fuel read (0x7d :: rest) = some (.object read.reverse, rest) := rfl

theorem readMembers_member {fuel : Nat} {key : Bytes} {value : Json} {bs rest rest' : Bytes}
    (hkey : readString [] bs = some (key, 0x3a :: rest)) (hvalue : readValue fuel rest = some (value, rest'))
    (read : List (Bytes × Json)) :
    readMembers (fuel + 1) read (0x22 :: bs) = afterMember fuel ((key, value) :: read) rest' := by
  rw [readMembers, skipBlank_of_token (b := 0x22) (by decide)]
  simp only [hkey, skipBlank_of_token (b := 0x3a) (by decide), hvalue]
  rfl

/-- What may follow a document: nothing, or what comes between or after the parts of a larger one. -/
def Follows (rest : Bytes) : Prop := ∀ b ∈ rest.head?, b = 0x2c ∨ b = 0x5d ∨ b = 0x7d

theorem follows_nil : Follows [] := nofun

theorem follows_cons {b : UInt8} (h : b = 0x2c ∨ b = 0x5d ∨ b = 0x7d) (rest : Bytes) : Follows (b :: rest) := by
  rintro _ ⟨⟩
  exact h

/-- A document is read from before whatever may follow it. -/
def Reads (json : Json) : Prop :=
  ∀ fuel rest, Follows rest → json.render.length ≤ fuel → readValue fuel (json.render ++ rest) = some (json, rest)

theorem readItems_render {items : List Json} (hitems : items ≠ []) (h : ∀ item ∈ items, Reads item)
    (fuel : Nat) (read : List Json) (rest : Bytes) (hfuel : (renderItems items).length < fuel) :
    readItems fuel read (renderItems items ++ 0x5d :: rest) = some (.array (read.reverse ++ items), rest) := by
  induction items generalizing fuel read with
  | nil => exact absurd rfl hitems
  | cons item items ih =>
    have hitem := h item List.mem_cons_self
    obtain ⟨fuel, rfl⟩ : ∃ n, fuel = n + 1 := ⟨fuel - 1, by omega⟩
    cases items with
    | nil =>
      rw [renderItems] at hfuel ⊢
      rw [readItems_item (hitem fuel _ (follows_cons (.inr (.inl rfl)) _) (by omega)), afterItem_end,
        List.reverse_cons]
    | cons next items =>
      rw [renderItems_cons] at hfuel ⊢
      simp only [List.length_append, List.length_cons] at hfuel
      have hrest := ih (by simp) (fun item hmem => h item (List.mem_cons_of_mem _ hmem)) fuel (item :: read)
        (by omega)
      rw [List.append_assoc, List.cons_append,
        readItems_item (hitem fuel _ (follows_cons (.inl rfl) _) (by omega)), afterItem_comma, hrest,
        List.reverse_cons, List.append_assoc, List.singleton_append]

theorem renderMembers_single (member : String × Json) :
    renderMembers ([member].map spelled) = 0x22 :: (escape member.1 ++ 0x22 :: 0x3a :: render member.2) := by
  simp [renderMembers, spelled]

theorem renderMembers_cons (member next : String × Json) (members : List (String × Json)) :
    renderMembers ((member :: next :: members).map spelled) =
      0x22 :: (escape member.1 ++ 0x22 :: 0x3a ::
        (render member.2 ++ 0x2c :: renderMembers ((next :: members).map spelled))) := by
  simp [renderMembers, spelled]

theorem readMembers_render {members : List (String × Json)} (hmembers : members ≠ [])
    (h : ∀ member ∈ members, Reads member.2) (fuel : Nat) (read : List (Bytes × Json)) (rest : Bytes)
    (hfuel : (renderMembers (members.map spelled)).length < fuel) :
    readMembers fuel read (renderMembers (members.map spelled) ++ 0x7d :: rest) =
      some (.object (read.reverse ++ members.map spelled), rest) := by
  induction members generalizing fuel read with
  | nil => exact absurd rfl hmembers
  | cons member members ih =>
    have hvalue := h member List.mem_cons_self
    obtain ⟨fuel, rfl⟩ : ∃ n, fuel = n + 1 := ⟨fuel - 1, by omega⟩
    cases members with
    | nil =>
      rw [renderMembers_single] at hfuel ⊢
      simp only [List.length_append, List.length_cons] at hfuel
      simp only [List.cons_append, List.append_assoc]
      rw [readMembers_member (readString_escape _ _) (hvalue fuel _ (follows_cons (.inr (.inr rfl)) _) (by omega)),
        afterMember_end, List.reverse_cons]
      rfl
    | cons next members =>
      rw [renderMembers_cons] at hfuel ⊢
      simp only [List.length_append, List.length_cons] at hfuel
      have hrest := ih (by simp) (fun member hmem => h member (List.mem_cons_of_mem _ hmem)) fuel
        ((escape member.1, member.2) :: read) (by omega)
      simp only [List.cons_append, List.append_assoc]
      rw [readMembers_member (readString_escape _ _) (hvalue fuel _ (follows_cons (.inl rfl) _) (by omega)),
        afterMember_comma, hrest, List.reverse_cons, List.append_assoc, List.singleton_append]
      rfl

theorem render_text (s : String) : render (.text s) = 0x22 :: escape s ++ [0x22] := rfl

theorem render_array (items : List Json) : render (.array items) = 0x5b :: renderItems items ++ [0x5d] := rfl

theorem render_ofMembers (members : List (String × Json)) :
    render (ofMembers members) = 0x7b :: renderMembers (members.map spelled) ++ [0x7d] := rfl

theorem renderItems_head {items : List Json} (hitems : items ≠ []) (h : ∀ item ∈ items, Begins item) :
    ∃ b rest, renderItems items = b :: rest ∧ isBlank b = false ∧ b ≠ 0x5d := by
  cases items with
  | nil => exact absurd rfl hitems
  | cons item items =>
    obtain ⟨b, rest, hrender, hblank, hend⟩ := h item List.mem_cons_self
    cases items with
    | nil => exact ⟨b, rest, hrender, hblank, hend⟩
    | cons next items =>
      refine ⟨b, rest ++ 0x2c :: renderItems (next :: items), ?_, hblank, hend⟩
      rw [renderItems_cons, hrender, List.cons_append]

theorem renderMembers_head {members : List (String × Json)} (hmembers : members ≠ []) :
    ∃ rest, renderMembers (members.map spelled) = 0x22 :: rest := by
  cases members with
  | nil => exact absurd rfl hmembers
  | cons member members =>
    cases members with
    | nil => exact ⟨_, rfl⟩
    | cons next members => exact ⟨_, rfl⟩

theorem readValue_items {b : UInt8} (hblank : isBlank b = false) (hend : b ≠ 0x5d) (fuel : Nat) (rest : Bytes) :
    readValue (fuel + 1) (0x5b :: b :: rest) = readItems fuel [] (b :: rest) := by
  rw [readValue, skipBlank_of_token (b := 0x5b) (by decide)]
  simp only [skipBlank_of_token hblank]
  simp [hend]

theorem readValue_members (fuel : Nat) (rest : Bytes) :
    readValue (fuel + 1) (0x7b :: 0x22 :: rest) = readMembers fuel [] (0x22 :: rest) := by
  rw [readValue, skipBlank_of_token (b := 0x7b) (by decide)]
  simp [skipBlank_of_token (b := 0x22) (by decide)]

theorem reads_text (s : String) : Reads (.text s) := by
  intro fuel rest _ hfuel
  rw [render_text] at hfuel ⊢
  simp only [List.length_append, List.length_cons] at hfuel
  obtain ⟨fuel, rfl⟩ : ∃ n, fuel = n + 1 := ⟨fuel - 1, by omega⟩
  rw [List.cons_append, List.cons_append, List.append_assoc, List.singleton_append, readValue,
    skipBlank_of_token (b := 0x22) (by decide)]
  simp [readString_escape, Json.text]

theorem reads_ofMembers {members : List (String × Json)} (h : ∀ member ∈ members, Reads member.2) :
    Reads (ofMembers members) := by
  intro fuel rest _ hfuel
  rw [render_ofMembers] at hfuel ⊢
  simp only [List.length_append, List.length_cons] at hfuel
  obtain ⟨fuel, rfl⟩ : ∃ n, fuel = n + 1 := ⟨fuel - 1, by omega⟩
  by_cases hnil : members = []
  · subst hnil
    simp [renderMembers, ofMembers, readValue, skipBlank_of_token (b := 0x7b) (by decide),
      skipBlank_of_token (b := 0x7d) (by decide)]
  · obtain ⟨tail, hrender⟩ := renderMembers_head hnil
    have hread := readMembers_render hnil h fuel [] rest (by omega)
    rw [hrender] at hread ⊢
    rw [List.cons_append, List.cons_append, List.append_assoc]
    exact (readValue_members fuel _).trans hread

theorem reads_array {items : List Json} (hbegins : ∀ item ∈ items, Begins item) (h : ∀ item ∈ items, Reads item) :
    Reads (.array items) := by
  intro fuel rest _ hfuel
  rw [render_array] at hfuel ⊢
  simp only [List.length_append, List.length_cons] at hfuel
  obtain ⟨fuel, rfl⟩ : ∃ n, fuel = n + 1 := ⟨fuel - 1, by omega⟩
  by_cases hnil : items = []
  · subst hnil
    simp [renderItems, readValue, skipBlank_of_token (b := 0x5b) (by decide),
      skipBlank_of_token (b := 0x5d) (by decide)]
  · obtain ⟨b, tail, hrender, hblank, hend⟩ := renderItems_head hnil hbegins
    have hread := readItems_render hnil h fuel [] rest (by omega)
    rw [hrender] at hread ⊢
    rw [List.cons_append, List.cons_append, List.append_assoc]
    exact (readValue_items hblank hend fuel _).trans hread

theorem Written.reads {json : Json} (h : Written json) : Reads json := by
  induction h with
  | text s => exact reads_text s
  | array hitems ih => exact reads_array (fun item hmem => (hitems item hmem).begins) ih
  | object _ ih => exact reads_ofMembers ih

theorem parse?_of_reads {json : Json} (h : Reads json) : parse? json.render = some json := by
  have hread := h (2 * json.render.length + 2) [] follows_nil (by omega)
  rw [List.append_nil] at hread
  rw [parse?, hread]
  rfl

theorem parse?_render {json : Json} (h : Written json) : parse? json.render = some json :=
  parse?_of_reads h.reads

/-- What is read of the beginning of a document is the document. -/
def Settles (json : Json) : Prop :=
  ∀ fuel bs more tail, bs ++ more = json.render ++ tail → Finds (readValue fuel bs) json more tail

theorem readValue_nil (fuel : Nat) : readValue fuel [] = none := by
  cases fuel <;> rfl

theorem readItems_finds {items : List Json} (hitems : items ≠ []) (h : ∀ item ∈ items, Settles item)
    (fuel : Nat) (read : List Json) {bs more tail : Bytes} (hbs : bs ++ more = renderItems items ++ 0x5d :: tail) :
    Finds (readItems fuel read bs) (.array (read.reverse ++ items)) more tail := by
  induction items generalizing fuel read bs with
  | nil => exact absurd rfl hitems
  | cons item items ih =>
    have hitem := h item List.mem_cons_self
    cases fuel with
    | zero => exact .inl rfl
    | succ fuel =>
      have hread : Finds (readValue fuel bs) item more
          (if items = [] then 0x5d :: tail else 0x2c :: (renderItems items ++ 0x5d :: tail)) := by
        cases items with
        | nil => exact hitem fuel bs more _ hbs
        | cons next items =>
          rw [renderItems_cons, List.append_assoc] at hbs
          exact hitem fuel bs more _ hbs
      rcases hread with hnone | ⟨rest, hsome, hrest⟩
      · exact .inl (by rw [readItems, hnone])
      · rw [readItems_item hsome]
        cases rest with
        | nil => exact .inl (afterItem_nil _ _)
        | cons b rest =>
          cases items with
          | nil =>
            obtain ⟨rfl, htail⟩ := List.cons.inj hrest
            exact .inr ⟨rest, by rw [afterItem_end, List.reverse_cons], htail⟩
          | cons next items =>
            obtain ⟨rfl, htail⟩ := List.cons.inj hrest
            have hfinds := ih (by simp) (fun item hmem => h item (List.mem_cons_of_mem _ hmem)) fuel
              (item :: read) htail
            rw [List.reverse_cons, List.append_assoc] at hfinds
            rw [afterItem_comma]
            exact hfinds

theorem readMembers_of_member {member : String × Json} (h : Settles member.2) (fuel : Nat)
    (read : List (Bytes × Json)) {bs more tail : Bytes}
    (hbs : bs ++ more = 0x22 :: (escape member.1 ++ 0x22 :: 0x3a :: (render member.2 ++ tail))) :
    readMembers (fuel + 1) read bs = none ∨ ∃ rest, rest ++ more = tail ∧
      readMembers (fuel + 1) read bs = afterMember fuel (spelled member :: read) rest := by
  cases bs with
  | nil => exact .inl rfl
  | cons b bs =>
    obtain ⟨rfl, hkeyed⟩ := List.cons.inj hbs
    have hquote := skipBlank_of_token (b := 0x22) (by decide)
    rcases readString_finds hkeyed with hnone | ⟨rest, hkey, hrest⟩
    · exact .inl (by rw [readMembers, hquote]; simp only [hnone])
    · cases rest with
      | nil => exact .inl (by rw [readMembers, hquote]; simp only [hkey]; rfl)
      | cons b rest =>
        obtain ⟨rfl, htail⟩ := List.cons.inj hrest
        rcases h fuel rest more tail htail with hnone | ⟨rest', hvalue, hrest'⟩
        · refine .inl ?_
          rw [readMembers, hquote]
          simp only [hkey, skipBlank_of_token (b := 0x3a) (by decide), hnone]
        · exact .inr ⟨rest', hrest', readMembers_member hkey hvalue read⟩

theorem readMembers_finds {members : List (String × Json)} (hmembers : members ≠ [])
    (h : ∀ member ∈ members, Settles member.2) (fuel : Nat) (read : List (Bytes × Json)) {bs more tail : Bytes}
    (hbs : bs ++ more = renderMembers (members.map spelled) ++ 0x7d :: tail) :
    Finds (readMembers fuel read bs) (.object (read.reverse ++ members.map spelled)) more tail := by
  induction members generalizing fuel read bs with
  | nil => exact absurd rfl hmembers
  | cons member members ih =>
    have hmember := h member List.mem_cons_self
    cases fuel with
    | zero => exact .inl rfl
    | succ fuel =>
      cases members with
      | nil =>
        rw [renderMembers_single] at hbs
        simp only [List.cons_append, List.append_assoc] at hbs
        rcases readMembers_of_member hmember fuel read hbs with hnone | ⟨rest, hrest, hread⟩
        · exact .inl hnone
        · rw [hread]
          cases rest with
          | nil => exact .inl (afterMember_nil _ _)
          | cons b rest =>
            obtain ⟨rfl, htail⟩ := List.cons.inj hrest
            exact .inr ⟨rest, by rw [afterMember_end, List.reverse_cons]; rfl, htail⟩
      | cons next members =>
        rw [renderMembers_cons] at hbs
        simp only [List.cons_append, List.append_assoc] at hbs
        rcases readMembers_of_member hmember fuel read hbs with hnone | ⟨rest, hrest, hread⟩
        · exact .inl hnone
        · rw [hread]
          cases rest with
          | nil => exact .inl (afterMember_nil _ _)
          | cons b rest =>
            obtain ⟨rfl, htail⟩ := List.cons.inj hrest
            have hfinds := ih (by simp) (fun member hmem => h member (List.mem_cons_of_mem _ hmem)) fuel
              (spelled member :: read) htail
            rw [List.reverse_cons, List.append_assoc] at hfinds
            rw [afterMember_comma]
            exact hfinds

theorem readItems_nil (fuel : Nat) (read : List Json) : readItems fuel read [] = none := by
  cases fuel with
  | zero => rfl
  | succ fuel => rw [readItems, readValue_nil]

theorem readMembers_nil (fuel : Nat) (read : List (Bytes × Json)) : readMembers fuel read [] = none := by
  cases fuel <;> rfl

/-- What is read of the beginning of a document of texts, arrays and objects is the document. -/
theorem Written.settles {json : Json} (h : Written json) : Settles json := by
  induction h with
  | text s =>
    intro fuel bs more tail hbs
    rw [render_text, List.append_assoc, List.cons_append] at hbs
    cases fuel with
    | zero => exact .inl rfl
    | succ fuel =>
      cases bs with
      | nil => exact .inl rfl
      | cons b bs =>
        obtain ⟨rfl, htext⟩ := List.cons.inj hbs
        have hread : readValue (fuel + 1) (0x22 :: bs) =
            (readString [] bs).map fun read => (.string read.1, read.2) := rfl
        rw [hread]
        rcases readString_finds htext with hnone | ⟨rest, hsome, hrest⟩
        · exact .inl (by rw [hnone]; rfl)
        · exact .inr ⟨rest, by rw [hsome]; rfl, hrest⟩
  | @array items hitems ih =>
    intro fuel bs more tail hbs
    rw [render_array, List.append_assoc, List.cons_append] at hbs
    cases bs with
    | nil => exact .inl (readValue_nil fuel)
    | cons b bs =>
      obtain ⟨rfl, htext⟩ := List.cons.inj hbs
      cases fuel with
      | zero => exact .inl rfl
      | succ fuel =>
        cases bs with
        | nil => exact .inl (readItems_nil fuel [])
        | cons b bs =>
          by_cases hnil : items = []
          · subst hnil
            obtain ⟨rfl, htail⟩ := List.cons.inj htext
            exact .inr ⟨bs, rfl, htail⟩
          · obtain ⟨first, rest, hrender, hblank, hend⟩ :=
              renderItems_head hnil fun item hmem => (hitems item hmem).begins
            have hfinds := readItems_finds hnil ih fuel [] htext
            rw [hrender] at htext
            obtain ⟨rfl, _⟩ := List.cons.inj htext
            rw [readValue_items hblank hend]
            exact hfinds
  | @object members hmembers ih =>
    intro fuel bs more tail hbs
    rw [render_ofMembers, List.append_assoc, List.cons_append] at hbs
    cases bs with
    | nil => exact .inl (readValue_nil fuel)
    | cons b bs =>
      obtain ⟨rfl, htext⟩ := List.cons.inj hbs
      cases fuel with
      | zero => exact .inl rfl
      | succ fuel =>
        cases bs with
        | nil => exact .inl (readMembers_nil fuel [])
        | cons b bs =>
          by_cases hnil : members = []
          · subst hnil
            obtain ⟨rfl, htail⟩ := List.cons.inj htext
            exact .inr ⟨bs, rfl, htail⟩
          · obtain ⟨rest, hrender⟩ := renderMembers_head hnil
            have hfinds := readMembers_finds hnil ih fuel [] htext
            rw [hrender] at htext
            obtain ⟨rfl, _⟩ := List.cons.inj htext
            rw [readValue_members]
            exact hfinds

theorem parse?_cut {json : Json} (h : Written json) {bs more : Bytes} (hbs : bs ++ more = json.render)
    (hmore : more ≠ []) : parse? bs = none := by
  have hwhole : bs ++ more = json.render ++ [] := by rw [hbs, List.append_nil]
  rcases h.settles (2 * bs.length + 2) bs more [] hwhole with hnone | ⟨rest, hsome, hrest⟩
  · rw [parse?, hnone]
  · exact absurd (List.append_eq_nil_iff.1 hrest).2 hmore

end RpcConformance.Json
