import Mathlib.Tactic
import TileBuffer.Json.Parse
import TileBuffer.Proofs.Config.Json
import TileBuffer.Proofs.Json.Token

namespace TileBuffer

namespace Json

/-- Half of a surrogate pair is written by its number. -/
def quote : Option String → List Char
  | some s => '"' :: (s.toList.flatMap Token.escape ++ ['"'])
  | none => ['"', '\\', 'u', 'd', '8', '0', '0', '"']

section Text

variable (write : Number → List Char)

mutual

/-- The text without blanks, with numbers as `write` writes them. -/
def text : Json → List Char
  | .null => ['n', 'u', 'l', 'l']
  | .bool true => ['t', 'r', 'u', 'e']
  | .bool false => ['f', 'a', 'l', 's', 'e']
  | .num n => write n
  | .str s => quote s
  | .arr [] => ['[', ']']
  | .arr (v :: items) => '[' :: (v.text ++ itemsText items)
  | .obj [] => ['\x7b', '\x7d']
  | .obj ((k, v) :: members) => '\x7b' :: (quote k ++ ':' :: (v.text ++ membersText members))

def itemsText : List Json → List Char
  | [] => [']']
  | v :: items => ',' :: (v.text ++ itemsText items)

def membersText : List (Option String × Json) → List Char
  | [] => ['\x7d']
  | (k, v) :: members => ',' :: (quote k ++ ':' :: (v.text ++ membersText members))

end

end Text

/-- All its numbers are finite. -/
inductive IsFinite : Json → Prop
  | null : IsFinite .null
  | bool (b : Bool) : IsFinite (.bool b)
  | num {n : Number} (h : n.IsFinite) : IsFinite (.num n)
  | str (s : Option String) : IsFinite (.str s)
  | arr {items : List Json} (h : ∀ v ∈ items, IsFinite v) : IsFinite (.arr items)
  | obj {members : List (Option String × Json)} (h : ∀ m ∈ members, IsFinite m.2) :
      IsFinite (.obj members)

theorem scan_quote (s : Option String) {tokens : List Token} {rest : List Char} :
    Token.scan tokens (quote s ++ rest) = Token.scan (.scalar (.str s) :: tokens) rest := by
  cases s with
  | some s =>
    have h := Token.quoted?_escapes [] s.toList rest
    rw [quote, List.cons_append, List.append_assoc, List.singleton_append, Token.scan_quoted h,
      List.reverse_nil, List.nil_append, Token.textOf_pieces, Option.map_some, String.ofList_toList]
  | none =>
    have h : Token.quoted? [] ('\\' :: 'u' :: 'd' :: '8' :: '0' :: '0' :: '"' :: rest) =
        some ([.unit 0xd800], rest) := rfl
    exact Token.scan_quoted h

namespace Expect

variable {e e' : Expect} {t : Token} {cs rest : List Char} {stack : List Open}

def run (e : Expect) (cs : List Char) : Option Expect :=
  (Token.scan [] cs).bind (List.foldlM step e)

theorem run_of_scan (h : Token.scan [] cs = Token.scan [t] rest) (he : e.step t = some e') :
    run e cs = run e' rest := by
  rw [run, run, h, Token.scan_eq]
  cases Token.scan [] rest with
  | none => rfl
  | some tokens => simp [he]

theorem run_mark {c : Char} (hc : Token.mark? c = some t) (he : e.step t = some e') :
    run e (c :: rest) = run e' rest :=
  run_of_scan (Token.scan_mark hc) he

def Begins (e : Expect) (stack : List Open) : Prop :=
  ∀ t, t ≠ .closeArray → e.step t = begin stack t

theorem begins_value (stack : List Open) : (value stack).Begins stack := fun _ _ ↦ rfl

theorem begins_item (stack : List Open) : (item stack).Begins (.arr [] :: stack) := by
  intro t h
  cases t with
  | closeArray => exact absurd rfl h
  | _ => rfl

theorem Begins.run_scalar {v : Json} (he : e.Begins stack)
    (h : Token.scan [] cs = Token.scan [.scalar v] rest) : run e cs = run (.after v stack) rest :=
  run_of_scan h (he _ (by simp))

end Expect

open Expect

variable {write : Number → List Char}

/-- The text of `v` is read as `v` wherever a value is expected. -/
def Reads (write : Number → List Char) (v : Json) : Prop :=
  ∀ {e : Expect} {stack : List Open} {rest : List Char}, e.Begins stack → Token.Ends rest →
    run e (v.text write ++ rest) = run (.after v stack) rest

theorem ends_itemsText (items : List Json) (rest : List Char) :
    Token.Ends (itemsText write items ++ rest) := by
  cases items <;> intro c hc <;> cases hc <;> decide

theorem ends_membersText (members : List (Option String × Json)) (rest : List Char) :
    Token.Ends (membersText write members ++ rest) := by
  rcases members with _ | ⟨⟨k, v⟩, members⟩ <;> intro c hc <;> cases hc <;> decide

theorem run_itemsText {items : List Json} (h : ∀ v ∈ items, Reads write v) (done : List Json) (v : Json)
    (stack : List Open) (rest : List Char) :
    run (.after v (.arr done :: stack)) (itemsText write items ++ rest) =
      run (.after (.arr (done.reverse ++ v :: items)) stack) rest := by
  induction items generalizing done v with
  | nil =>
    rw [itemsText, List.singleton_append, run_mark rfl rfl, List.reverse_cons]
  | cons w items ih =>
    rw [itemsText, List.cons_append, run_mark rfl rfl, List.append_assoc,
      h w List.mem_cons_self (begins_value _) (ends_itemsText items rest),
      ih (fun v hv ↦ h v (List.mem_cons_of_mem w hv)), List.reverse_cons, List.append_assoc,
      List.singleton_append]

theorem run_quote_colon {e : Expect} {members : List (Option String × Json)} {k : Option String}
    {stack : List Open} (he : e.step (.scalar (.str k)) = some (.colon members k stack))
    (cs : List Char) :
    run e (quote k ++ ':' :: cs) = run (.value (.obj members k :: stack)) cs := by
  rw [run_of_scan (scan_quote k) he]
  exact run_mark rfl rfl

theorem run_membersText {members : List (Option String × Json)} (h : ∀ m ∈ members, Reads write m.2)
    (done : List (Option String × Json)) (k : Option String) (v : Json) (stack : List Open)
    (rest : List Char) :
    run (.after v (.obj done k :: stack)) (membersText write members ++ rest) =
      run (.after (.obj (done.reverse ++ (k, v) :: members)) stack) rest := by
  induction members generalizing done k v with
  | nil =>
    rw [membersText, List.singleton_append, run_mark rfl rfl, List.reverse_cons]
  | cons m members ih =>
    obtain ⟨k', w⟩ := m
    rw [membersText, List.cons_append, run_mark rfl rfl, List.append_assoc, List.cons_append,
      run_quote_colon rfl, List.append_assoc,
      h (k', w) List.mem_cons_self (begins_value _) (ends_membersText members rest),
      ih (fun m hm ↦ h m (List.mem_cons_of_mem _ hm)), List.reverse_cons, List.append_assoc,
      List.singleton_append]

theorem reads_arr {items : List Json} (h : ∀ v ∈ items, Reads write v) :
    Reads write (.arr items) := by
  intro e stack rest he _
  have hopen : e.step .openArray = some (.item stack) := he _ (by simp)
  cases items with
  | nil =>
    rw [text, List.cons_append, run_mark rfl hopen]
    exact run_mark rfl rfl
  | cons v items =>
    obtain ⟨hv, hitems⟩ := List.forall_mem_cons.mp h
    rw [text, List.cons_append, List.append_assoc, run_mark rfl hopen,
      hv (begins_item stack) (ends_itemsText items rest), run_itemsText hitems]
    rfl

theorem reads_obj {members : List (Option String × Json)} (h : ∀ m ∈ members, Reads write m.2) :
    Reads write (.obj members) := by
  intro e stack rest he _
  have hopen : e.step .openObject = some (.firstKey stack) := he _ (by simp)
  rcases members with _ | ⟨⟨k, v⟩, members⟩
  · rw [text, List.cons_append, run_mark rfl hopen]
    exact run_mark rfl rfl
  · obtain ⟨hv, hmembers⟩ := List.forall_mem_cons.mp h
    rw [text, List.cons_append, List.append_assoc, List.cons_append, List.append_assoc,
      run_mark rfl hopen, run_quote_colon rfl,
      hv (begins_value _) (ends_membersText members rest), run_membersText hmembers]
    rfl

theorem IsFinite.reads {j : Json} (h : j.IsFinite) (hw : Token.Faithful write) :
    Reads write j := by
  induction h with
  | null => exact fun he hr ↦ he.run_scalar (Token.scan_word rfl (by decide) hr)
  | bool b =>
    cases b with
    | true => exact fun he hr ↦ he.run_scalar (Token.scan_word rfl (by decide) hr)
    | false => exact fun he hr ↦ he.run_scalar (Token.scan_word rfl (by decide) hr)
  | num h => exact fun he hr ↦ he.run_scalar (hw.scan_number h hr)
  | str s => exact fun he _ ↦ he.run_scalar (scan_quote s)
  | arr _ ih => exact reads_arr ih
  | obj _ ih => exact reads_obj ih

/-- A text without blanks is read as what it was written for, however the numbers in it are
written. -/
theorem parse?_text {j : Json} (h : j.IsFinite) (hw : Token.Faithful write) :
    parse? (String.ofList (j.text write)) = some j := by
  have hrun : run (.value []) (j.text write) = some (.after j []) := by
    have hreads : run (.value []) (j.text write ++ []) = run (.after j []) [] :=
      h.reads hw (begins_value []) (by intro c hc; cases hc)
    rw [List.append_nil] at hreads
    rw [hreads, run, Token.scan]
    rfl
  obtain ⟨tokens, hscan, hfold⟩ := Option.bind_eq_some_iff.mp hrun
  rw [parse?, String.toList_ofList, hscan, Option.bind_some, ofTokens?, hfold]

theorem isFinite_ofValue (v : Value) : (ofValue v).IsFinite := by
  rw [ofValue]
  split
  next h => exact .num h
  next => exact .null

theorem isFinite_word (n : UInt64) : (word n).IsFinite := .num trivial

theorem isFinite_record {members : List (String × Json)} (h : ∀ m ∈ members, m.2.IsFinite) :
    (record members).IsFinite := by
  refine .obj fun m hm ↦ ?_
  obtain ⟨⟨name, v⟩, hv, rfl⟩ := List.mem_map.mp hm
  exact h (name, v) hv

end Json

variable {j : Json}

theorem Tile.isFinite_toJson (t : Tile) : t.toJson.IsFinite := by
  refine Json.isFinite_record ?_
  simp only [List.forall_mem_cons, Json.isFinite_word, true_and]
  exact List.forall_mem_nil _

theorem Grid.isFinite_toJson (g : Grid) : g.toJson.IsFinite := by
  refine Json.isFinite_record ?_
  simp only [List.forall_mem_cons, Json.isFinite_word, true_and]
  exact List.forall_mem_nil _

theorem StoragePolicy.isFinite_of_toJson? {p : StoragePolicy} (h : p.toJson? = some j) :
    j.IsFinite := by
  cases p with
  | turnPoint share =>
    cases h
    refine Json.isFinite_record ?_
    rw [List.forall_mem_singleton]
    refine Json.isFinite_record ?_
    rw [List.forall_mem_singleton]
    exact Json.isFinite_ofValue share
  | alwaysSparse =>
    cases h
    exact .str _
  | alwaysDense =>
    cases h
    exact .str _
  | custom rule => cases h

theorem Config.isFinite_of_toJson? {c : Config} (h : c.toJson? = some j) : j.IsFinite := by
  rw [toJson?, Option.bind_eq_bind, Option.bind_eq_some_iff] at h
  obtain ⟨density, hd, h⟩ := h
  cases h
  refine Json.isFinite_record ?_
  simp only [List.forall_mem_cons]
  exact ⟨c.grid.isFinite_toJson, Json.isFinite_word _, StoragePolicy.isFinite_of_toJson? hd,
    .bool _, List.forall_mem_nil _⟩

section RoundTrip

variable {write : Number → List Char} (hw : Token.Faithful write)

include hw

/-- The text of a configuration is read as that configuration, if its turn point is finite. -/
theorem Config.parse_text {c : Config} (h : c.toJson? = some j) :
    (Json.parse? (String.ofList (j.text write))).bind Config.ofJson? =
      if c.policy.legible then some c else none := by
  rw [Json.parse?_text (isFinite_of_toJson? h) hw, Option.bind_some]
  exact (written_of_toJson? h).ofJson?_eq

theorem Tile.parse_text (t : Tile) :
    (Json.parse? (String.ofList (t.toJson.text write))).bind Tile.ofJson? = some t := by
  rw [Json.parse?_text t.isFinite_toJson hw, Option.bind_some]
  exact ofJson?_eq_some_iff.mpr t.written_toJson

end RoundTrip

end TileBuffer
