import EighthLayer.Lib.Bytes
import Mathlib.Data.List.Sort
import Mathlib.Data.String.Basic

/-!
# EighthLayer.Lib.Json

JSON values and the text `json.dumps(v, sort_keys=True, separators=(",", ":"),
ensure_ascii=False)` writes for them.

The main result is `dumps_inj`: two values with the same text are the same up to
the order of object members. A text written by `dumps` can therefore stand for
the value itself in a hash or under a signature. The proof reads a printed value
off the front of a longer text (`print_append_inj`); the only values that need
to know what follows them are numbers, whose text is not delimited.
-/

namespace Lib

/-- A character that can stand inside the text of a number, `NaN` and `Infinity`
included. -/
def isNumChar (c : Char) : Bool :=
  c.isAlphanum || c.toNat = 43 || c.toNat = 45 || c.toNat = 46

/-- A character that can start the text of a number. -/
def isNumStart (c : Char) : Bool :=
  c.isDigit || c.toNat = 45 || c.toNat = 78 || c.toNat = 73

/-- The text of a JSON number. Python keeps integers and floats apart by their
type; their texts never coincide, so the text alone identifies the number. -/
structure NumText where
  /-- The characters `dumps` writes. -/
  head : Char
  tail : List Char
  starts : isNumStart head = true
  chars : tail.all isNumChar = true
deriving DecidableEq

/-- The characters of a number. -/
def NumText.text (n : NumText) : List Char := n.head :: n.tail

/-- A JSON value, as Python holds it: `None`, a bool, a number, a string, a list
or a dict (whose members keep their insertion order). -/
inductive Json where
  | null
  | bool (b : Bool)
  | num (n : NumText)
  | str (s : String)
  | arr (xs : List Json)
  | obj (members : List (String × Json))

namespace Json

/-! ### Strings -/

def quote : Char := Char.ofNat 34
def backslash : Char := Char.ofNat 92
def comma : Char := Char.ofNat 44
def colon : Char := Char.ofNat 58
def openArr : Char := Char.ofNat 91
def closeArr : Char := Char.ofNat 93
def openObj : Char := Char.ofNat 123
def closeObj : Char := Char.ofNat 125

/-- The text of one character inside a string: the short escapes, `\u00xx` for
the other control characters, and the character itself otherwise. -/
def escape (c : Char) : List Char :=
  if c.toNat = 34 then [backslash, quote]
  else if c.toNat = 92 then [backslash, backslash]
  else if c.toNat = 10 then [backslash, Char.ofNat 110]
  else if c.toNat = 13 then [backslash, Char.ofNat 114]
  else if c.toNat = 9 then [backslash, Char.ofNat 116]
  else if c.toNat = 8 then [backslash, Char.ofNat 98]
  else if c.toNat = 12 then [backslash, Char.ofNat 102]
  else if c.toNat < 32 then
    [backslash, Char.ofNat 117, Char.ofNat 48, Char.ofNat 48,
      hexDigit (c.toNat / 16), hexDigit (c.toNat % 16)]
  else [c]

/-- The text of a string's characters and its closing quote. -/
def printChars : List Char → List Char
  | [] => [quote]
  | c :: cs => escape c ++ printChars cs

/-- The text of a string. -/
def printStr (s : String) : List Char := quote :: printChars s.toList

/-- Read one character of a string back from the front of a text. -/
def unescape : List Char → Option (Char × List Char)
  | [] => none
  | c :: rest =>
    if c.toNat = 92 then
      match rest with
      | d :: rest' =>
        if d.toNat = 110 then some (Char.ofNat 10, rest')
        else if d.toNat = 114 then some (Char.ofNat 13, rest')
        else if d.toNat = 116 then some (Char.ofNat 9, rest')
        else if d.toNat = 98 then some (Char.ofNat 8, rest')
        else if d.toNat = 102 then some (Char.ofNat 12, rest')
        else if d.toNat = 117 then
          match rest' with
          | _ :: _ :: h :: l :: rest'' =>
            match hexVal h, hexVal l with
            | some h, some l => some (Char.ofNat (16 * h + l), rest'')
            | _, _ => none
          | _ => none
        else some (d, rest')
      | [] => none
    else if c.toNat = 34 then none
    else some (c, rest)

/-- `unescape` is a left inverse of `escape`, whatever follows. -/
theorem unescape_escape (c : Char) (rest : List Char) :
    unescape (escape c ++ rest) = some (c, rest) := by
  by_cases hlow : c.toNat < 32
  · have hc : c = Char.ofNat c.toNat := (Char.ofNat_toNat c).symm
    generalize c.toNat = n at hlow hc
    subst hc
    interval_cases n <;> rfl
  · by_cases hq : c.toNat = 34
    · have hc : c = Char.ofNat 34 := by rw [← hq, Char.ofNat_toNat]
      subst hc
      rfl
    · by_cases hb : c.toNat = 92
      · have hc : c = Char.ofNat 92 := by rw [← hb, Char.ofNat_toNat]
        subst hc
        rfl
      · have hesc : escape c = [c] := by
          unfold escape
          rw [if_neg hq, if_neg hb, if_neg (by omega), if_neg (by omega), if_neg (by omega),
            if_neg (by omega), if_neg (by omega), if_neg hlow]
        rw [hesc, List.singleton_append]
        simp only [unescape, if_neg hb, if_neg hq]

theorem unescape_quote (rest : List Char) : unescape (quote :: rest) = none := rfl

/-- The characters of a string can be read off the front of a text. -/
theorem printChars_append_inj : ∀ {cs ds r r' : List Char},
    printChars cs ++ r = printChars ds ++ r' → cs = ds ∧ r = r'
  | [], [], r, r', h => ⟨rfl, by simpa [printChars] using h⟩
  | [], d :: ds, r, r', h => by
      have hread := congrArg unescape h
      simp only [printChars, List.append_assoc, List.singleton_append] at hread
      rw [unescape_quote, unescape_escape] at hread
      cases hread
  | c :: cs, [], r, r', h => by
      have hread := congrArg unescape h
      simp only [printChars, List.append_assoc, List.singleton_append] at hread
      rw [unescape_quote, unescape_escape] at hread
      cases hread
  | c :: cs, d :: ds, r, r', h => by
      have hread := congrArg unescape h
      simp only [printChars, List.append_assoc] at hread
      rw [unescape_escape, unescape_escape] at hread
      obtain ⟨hc, hrest⟩ := Prod.mk.inj (Option.some.inj hread)
      obtain ⟨hcs, hr⟩ := printChars_append_inj hrest
      exact ⟨by rw [hc, hcs], hr⟩

theorem printStr_append_inj {s t : String} {r r' : List Char}
    (h : printStr s ++ r = printStr t ++ r') : s = t ∧ r = r' := by
  simp only [printStr, List.cons_append, List.cons.injEq, true_and] at h
  obtain ⟨hchars, hr⟩ := printChars_append_inj h
  exact ⟨String.toList_injective hchars, hr⟩

/-! ### Values -/

mutual

/-- The text of a value, its object members in the order they stand. -/
def print : Json → List Char
  | .null => "null".toList
  | .bool true => "true".toList
  | .bool false => "false".toList
  | .num n => n.text
  | .str s => printStr s
  | .arr [] => [openArr, closeArr]
  | .arr (x :: xs) => openArr :: (print x ++ printElems xs)
  | .obj [] => [openObj, closeObj]
  | .obj ((k, v) :: ms) => openObj :: (printStr k ++ colon :: (print v ++ printMembers ms))

/-- The elements after the first one, and the closing bracket. -/
def printElems : List Json → List Char
  | [] => [closeArr]
  | x :: xs => comma :: (print x ++ printElems xs)

/-- The members after the first one, and the closing brace. -/
def printMembers : List (String × Json) → List Char
  | [] => [closeObj]
  | (k, v) :: ms => comma :: (printStr k ++ colon :: (print v ++ printMembers ms))

end

/-- A text that does not continue a number. -/
def Stops : List Char → Prop
  | [] => True
  | c :: _ => isNumChar c = false

theorem stops_printElems (xs : List Json) (r : List Char) : Stops (printElems xs ++ r) := by
  cases xs with
  | nil => exact (rfl : isNumChar closeArr = false)
  | cons x xs => exact (rfl : isNumChar comma = false)

theorem stops_printMembers (ms : List (String × Json)) (r : List Char) :
    Stops (printMembers ms ++ r) := by
  cases ms with
  | nil => exact (rfl : isNumChar closeObj = false)
  | cons m ms => exact (rfl : isNumChar comma = false)

/-- What the first two characters of a value's text say about the value. -/
inductive Kind where
  | null | true | false | num | str | emptyArr | arr | emptyObj | obj
deriving DecidableEq

/-- The kind of a value. -/
def kind : Json → Kind
  | .null => .null
  | .bool Bool.true => .true
  | .bool Bool.false => .false
  | .num _ => .num
  | .str _ => .str
  | .arr [] => .emptyArr
  | .arr (_ :: _) => .arr
  | .obj [] => .emptyObj
  | .obj (_ :: _) => .obj

/-- The values of a kind. -/
def Kind.Of : Kind → Json → Prop
  | .null, a => a = .null
  | .true, a => a = .bool Bool.true
  | .false, a => a = .bool Bool.false
  | .num, a => ∃ n, a = .num n
  | .str, a => ∃ s, a = .str s
  | .emptyArr, a => a = .arr []
  | .arr, a => ∃ x xs, a = .arr (x :: xs)
  | .emptyObj, a => a = .obj []
  | .obj, a => ∃ k v ms, a = .obj ((k, v) :: ms)

theorem kind_of : ∀ a : Json, (kind a).Of a
  | .null => rfl
  | .bool Bool.true => rfl
  | .bool Bool.false => rfl
  | .num n => ⟨n, rfl⟩
  | .str s => ⟨s, rfl⟩
  | .arr [] => rfl
  | .arr (x :: xs) => ⟨x, xs, rfl⟩
  | .obj [] => rfl
  | .obj ((k, v) :: ms) => ⟨k, v, ms, rfl⟩

/-- The kind of the value a text starts with. -/
def readKind : List Char → Option Kind
  | [] => none
  | c :: rest =>
    if isNumStart c then some .num
    else if c.toNat = 110 then some .null
    else if c.toNat = 116 then some .true
    else if c.toNat = 102 then some .false
    else if c = quote then some .str
    else if c = openArr then some (if rest.head? = some closeArr then .emptyArr else .arr)
    else if c = openObj then some (if rest.head? = some closeObj then .emptyObj else .obj)
    else none

/-- No value's text starts with a closing bracket. -/
theorem print_head (a : Json) (r : List Char) : (print a ++ r).head? ≠ some closeArr := by
  match a with
  | .null => exact (by decide : some 'n' ≠ some closeArr)
  | .bool Bool.true => exact (by decide : some 't' ≠ some closeArr)
  | .bool Bool.false => exact (by decide : some 'f' ≠ some closeArr)
  | .str _ => exact (by decide : some quote ≠ some closeArr)
  | .arr [] | .arr (_ :: _) => exact (by decide : some openArr ≠ some closeArr)
  | .obj [] | .obj ((_, _) :: _) => exact (by decide : some openObj ≠ some closeArr)
  | .num n =>
      intro h
      have hhead : n.head = closeArr := by simpa [print, NumText.text] using h
      have hstart := n.starts
      rw [hhead] at hstart
      exact absurd hstart (by decide)

theorem readKind_print (a : Json) (r : List Char) : readKind (print a ++ r) = some (kind a) := by
  match a with
  | .null => rfl
  | .bool Bool.true => rfl
  | .bool Bool.false => rfl
  | .num n => simp only [print, NumText.text, List.cons_append, readKind, n.starts, if_true, kind]
  | .str s => rfl
  | .arr [] => rfl
  | .arr (x :: xs) =>
      have hhead := print_head x (printElems xs ++ r)
      simp only [print, List.cons_append, List.append_assoc, readKind, kind, if_neg hhead]
      rfl
  | .obj [] => rfl
  | .obj ((k, v) :: ms) => rfl

/-- A number's text ends where the first character stands that is no part of one. -/
theorem numText_append_inj : ∀ {s t r r' : List Char},
    s.all isNumChar = true → t.all isNumChar = true → Stops r → Stops r' →
    s ++ r = t ++ r' → s = t ∧ r = r'
  | [], [], _, _, _, _, _, _, h => ⟨rfl, h⟩
  | [], c :: t, r, _, _, ht, hr, _, h => by
      have hc : isNumChar c = true := (List.all_eq_true.mp ht) c (List.mem_cons_self ..)
      rw [List.nil_append, List.cons_append] at h
      subst h
      have hstop : isNumChar c = false := hr
      rw [hc] at hstop
      cases hstop
  | c :: s, [], _, r', hs, _, _, hr', h => by
      have hc : isNumChar c = true := (List.all_eq_true.mp hs) c (List.mem_cons_self ..)
      rw [List.nil_append, List.cons_append] at h
      subst h
      have hstop : isNumChar c = false := hr'
      rw [hc] at hstop
      cases hstop
  | c :: s, d :: t, r, r', hs, ht, hr, hr', h => by
      rw [List.cons_append, List.cons_append, List.cons.injEq] at h
      simp only [List.all_cons, Bool.and_eq_true] at hs ht
      obtain ⟨hst, hrr⟩ := numText_append_inj hs.2 ht.2 hr hr' h.2
      exact ⟨by rw [h.1, hst], hrr⟩

theorem ext_numText {m n : NumText} (h : m.text = n.text) : m = n := by
  cases m
  cases n
  simp only [NumText.text, List.cons.injEq] at h
  obtain ⟨rfl, rfl⟩ := h
  rfl

mutual

/-- A value can be read off the front of a text, provided the rest does not
continue a number. -/
theorem print_append_inj : ∀ {a b : Json} {r r' : List Char},
    Stops r → Stops r' → print a ++ r = print b ++ r' → a = b ∧ r = r' := by
  intro a b r r' hr hr' h
  have hb : (kind a).Of b := by
    have hread := congrArg readKind h
    rw [readKind_print, readKind_print] at hread
    rw [Option.some.inj hread]
    exact kind_of b
  match a with
  | .null =>
      obtain rfl := hb
      exact ⟨rfl, List.append_cancel_left h⟩
  | .bool Bool.true =>
      obtain rfl := hb
      exact ⟨rfl, List.append_cancel_left h⟩
  | .bool Bool.false =>
      obtain rfl := hb
      exact ⟨rfl, List.append_cancel_left h⟩
  | .num m =>
      obtain ⟨n, rfl⟩ := hb
      simp only [print, NumText.text, List.cons_append, List.cons.injEq] at h
      obtain ⟨htail, hrr⟩ := numText_append_inj m.chars n.chars hr hr' h.2
      have htext : m.text = n.text := by rw [NumText.text, NumText.text, h.1, htail]
      exact ⟨by rw [ext_numText htext], hrr⟩
  | .str s =>
      obtain ⟨t, rfl⟩ := hb
      obtain ⟨hst, hrr⟩ := printStr_append_inj h
      exact ⟨by rw [hst], hrr⟩
  | .arr [] =>
      obtain rfl := hb
      exact ⟨rfl, List.append_cancel_left h⟩
  | .arr (x :: xs) =>
      obtain ⟨y, ys, rfl⟩ := hb
      simp only [print, List.cons_append, List.append_assoc, List.cons.injEq, true_and] at h
      obtain ⟨hxy, hrest⟩ := print_append_inj (stops_printElems xs r) (stops_printElems ys r') h
      obtain ⟨hxs, hrr⟩ := printElems_append_inj hrest
      exact ⟨by rw [hxy, hxs], hrr⟩
  | .obj [] =>
      obtain rfl := hb
      exact ⟨rfl, List.append_cancel_left h⟩
  | .obj ((k, v) :: ms) =>
      obtain ⟨l, w, ns, rfl⟩ := hb
      simp only [print, List.cons_append, List.append_assoc, List.cons.injEq, true_and] at h
      obtain ⟨hkl, hrest⟩ := printStr_append_inj h
      simp only [List.cons.injEq, true_and] at hrest
      obtain ⟨hvw, hrest⟩ :=
        print_append_inj (stops_printMembers ms r) (stops_printMembers ns r') hrest
      obtain ⟨hms, hrr⟩ := printMembers_append_inj hrest
      exact ⟨by rw [hkl, hvw, hms], hrr⟩

theorem printElems_append_inj : ∀ {xs ys : List Json} {r r' : List Char},
    printElems xs ++ r = printElems ys ++ r' → xs = ys ∧ r = r' := by
  intro xs ys r r' h
  match xs, ys with
  | [], [] => exact ⟨rfl, List.append_cancel_left h⟩
  | [], y :: ys =>
      simp only [printElems, List.cons_append, List.cons.injEq] at h
      exact absurd h.1 (by decide)
  | x :: xs, [] =>
      simp only [printElems, List.cons_append, List.cons.injEq] at h
      exact absurd h.1 (by decide)
  | x :: xs, y :: ys =>
      simp only [printElems, List.cons_append, List.append_assoc, List.cons.injEq, true_and] at h
      obtain ⟨hxy, hrest⟩ := print_append_inj (stops_printElems xs r) (stops_printElems ys r') h
      obtain ⟨hxs, hrr⟩ := printElems_append_inj hrest
      exact ⟨by rw [hxy, hxs], hrr⟩

theorem printMembers_append_inj : ∀ {ms ns : List (String × Json)} {r r' : List Char},
    printMembers ms ++ r = printMembers ns ++ r' → ms = ns ∧ r = r' := by
  intro ms ns r r' h
  match ms, ns with
  | [], [] => exact ⟨rfl, List.append_cancel_left h⟩
  | [], (l, w) :: ns =>
      simp only [printMembers, List.cons_append, List.cons.injEq] at h
      exact absurd h.1 (by decide)
  | (k, v) :: ms, [] =>
      simp only [printMembers, List.cons_append, List.cons.injEq] at h
      exact absurd h.1 (by decide)
  | (k, v) :: ms, (l, w) :: ns =>
      simp only [printMembers, List.cons_append, List.append_assoc, List.cons.injEq,
        true_and] at h
      obtain ⟨hkl, hrest⟩ := printStr_append_inj h
      simp only [List.cons.injEq, true_and] at hrest
      obtain ⟨hvw, hrest⟩ :=
        print_append_inj (stops_printMembers ms r) (stops_printMembers ns r') hrest
      obtain ⟨hms, hrr⟩ := printMembers_append_inj hrest
      exact ⟨by rw [hkl, hvw, hms], hrr⟩

end

/-- **An object ends where its bracket closes**, whatever follows. -/
theorem print_obj_append_inj {ms ns : List (String × Json)} {r r' : List Char}
    (h : print (.obj ms) ++ r = print (.obj ns) ++ r') : ms = ns ∧ r = r' := by
  match ms, ns with
  | [], [] => exact ⟨rfl, List.append_cancel_left h⟩
  | [], (l, w) :: ns =>
      have hread := congrArg readKind h
      rw [readKind_print, readKind_print] at hread
      cases hread
  | (k, v) :: ms, [] =>
      have hread := congrArg readKind h
      rw [readKind_print, readKind_print] at hread
      cases hread
  | (k, v) :: ms, (l, w) :: ns =>
      simp only [print, List.cons_append, List.append_assoc, List.cons.injEq, true_and] at h
      obtain ⟨hkl, hrest⟩ := printStr_append_inj h
      simp only [List.cons.injEq, true_and] at hrest
      obtain ⟨hvw, hrest⟩ :=
        print_append_inj (stops_printMembers ms r) (stops_printMembers ns r') hrest
      obtain ⟨hms, hrr⟩ := printMembers_append_inj hrest
      exact ⟨by rw [hkl, hvw, hms], hrr⟩

/-- A value's text identifies it. -/
theorem print_injective {a b : Json} (h : print a = print b) : a = b := by
  have happ : print a ++ [] = print b ++ [] := by rw [h]
  have hstop : Stops [] := trivial
  exact (print_append_inj hstop hstop happ).1

/-! ### Sorted members -/

mutual

/-- The value with the members of every object in the order of their keys. -/
def sortKeys : Json → Json
  | .null => .null
  | .bool b => .bool b
  | .num n => .num n
  | .str s => .str s
  | .arr xs => .arr (sortElems xs)
  | .obj ms => .obj ((sortMembers ms).insertionSort (fun m n => m.1 ≤ n.1))

def sortElems : List Json → List Json
  | [] => []
  | x :: xs => sortKeys x :: sortElems xs

def sortMembers : List (String × Json) → List (String × Json)
  | [] => []
  | (k, v) :: ms => (k, sortKeys v) :: sortMembers ms

end

/-- `json.dumps(v, sort_keys=True, separators=(",", ":"), ensure_ascii=False)`. -/
def dumps (v : Json) : String := String.ofList (print (sortKeys v))

/-- **Canonical text.** Values of the same text are the same up to the order of
object members. -/
theorem dumps_inj {a b : Json} (h : dumps a = dumps b) : sortKeys a = sortKeys b := by
  have hchars := congrArg String.toList h
  simp only [dumps, String.toList_ofList] at hchars
  exact print_injective hchars

/-- The text of an object starts with its bracket. -/
theorem dumps_obj_head (ms : List (String × Json)) :
    (dumps (.obj ms)).toList.head? = some openObj := by
  rw [dumps, String.toList_ofList, sortKeys]
  cases (sortMembers ms).insertionSort (fun m n => m.1 ≤ n.1) with
  | nil => rfl
  | cons m ms => rfl

/-! ### What equal texts say about objects -/

theorem mem_sortMembers {k : String} {v : Json} :
    ∀ {ms : List (String × Json)}, (k, v) ∈ ms → (k, sortKeys v) ∈ sortMembers ms
  | (k', v') :: ms, h => by
      rcases List.mem_cons.mp h with heq | htail
      · obtain ⟨rfl, rfl⟩ := Prod.mk.inj heq
        exact List.mem_cons_self ..
      · exact List.mem_cons_of_mem _ (mem_sortMembers htail)

theorem keys_sortMembers : ∀ ms : List (String × Json),
    (sortMembers ms).map Prod.fst = ms.map Prod.fst
  | [] => rfl
  | (k, v) :: ms => by simp only [sortMembers, List.map_cons, keys_sortMembers ms]

/-- Two members of one key agree where no key occurs twice. -/
theorem eq_of_mem_of_nodup_keys {α β : Type} {k : α} {v w : β} {ms : List (α × β)}
    (hnodup : (ms.map Prod.fst).Nodup) (hv : (k, v) ∈ ms) (hw : (k, w) ∈ ms) : v = w := by
  have hinj := List.inj_on_of_nodup_map hnodup
  exact (Prod.mk.inj (hinj hv hw rfl)).2

/-- Objects of the same text have the same members, up to their order. -/
theorem dumps_obj_perm {ms ns : List (String × Json)} (h : dumps (.obj ms) = dumps (.obj ns)) :
    (sortMembers ms).Perm (sortMembers ns) := by
  have hsort := dumps_inj h
  simp only [sortKeys, Json.obj.injEq] at hsort
  have hperm := List.perm_insertionSort (fun m n : String × Json => m.1 ≤ n.1) (sortMembers ms)
  rw [hsort] at hperm
  exact hperm.symm.trans (List.perm_insertionSort _ _)

/-- Objects of the same text agree on the value of each key they share. -/
theorem dumps_obj_value {ms ns : List (String × Json)} {k : String} {v w : Json}
    (h : dumps (.obj ms) = dumps (.obj ns)) (hnodup : (ns.map Prod.fst).Nodup)
    (hv : (k, v) ∈ ms) (hw : (k, w) ∈ ns) : sortKeys v = sortKeys w := by
  have hnodup' : ((sortMembers ns).map Prod.fst).Nodup := by rwa [keys_sortMembers]
  have hv' : (k, sortKeys v) ∈ sortMembers ns := (dumps_obj_perm h).mem_iff.mp (mem_sortMembers hv)
  exact eq_of_mem_of_nodup_keys hnodup' hv' (mem_sortMembers hw)

/-- Objects of the same text have the same keys. -/
theorem dumps_obj_keys {ms ns : List (String × Json)} (h : dumps (.obj ms) = dumps (.obj ns)) :
    (ms.map Prod.fst).Perm (ns.map Prod.fst) := by
  have hkeys := (dumps_obj_perm h).map Prod.fst
  rwa [keys_sortMembers, keys_sortMembers] at hkeys

/-! ### Values of Python's `str | None` and `int` -/

/-- `None` or a string. -/
def ofOption : Option String → Json
  | none => .null
  | some s => .str s

theorem sortKeys_ofOption (o : Option String) : sortKeys (ofOption o) = ofOption o := by
  cases o <;> rfl

theorem ofOption_inj {o o' : Option String} (h : ofOption o = ofOption o') : o = o' := by
  cases o <;> cases o' <;> simp_all [ofOption]

theorem isNumStart_of_isDigit {c : Char} (h : c.isDigit = true) : isNumStart c = true := by
  simp only [isNumStart, h, Bool.true_or]

theorem isNumChar_of_isDigit {c : Char} (h : c.isDigit = true) : isNumChar c = true := by
  simp only [isNumChar, Char.isAlphanum, h, Bool.or_true, Bool.true_or]

/-- The decimal text of a natural number. -/
def NumText.ofNat (n : Nat) : NumText where
  head := (Nat.toDigits 10 n).head Nat.toDigits_ne_nil
  tail := (Nat.toDigits 10 n).tail
  starts := isNumStart_of_isDigit
    (Nat.isDigit_of_mem_toDigits (by decide) (by decide) (List.head_mem _))
  chars := List.all_eq_true.mpr fun _ hc => isNumChar_of_isDigit
    (Nat.isDigit_of_mem_toDigits (by decide) (by decide) (List.mem_of_mem_tail hc))

theorem NumText.text_ofNat (n : Nat) : (NumText.ofNat n).text = Nat.toDigits 10 n :=
  List.cons_head_tail Nat.toDigits_ne_nil

/-- A natural number. -/
def ofNat (n : Nat) : Json := .num (NumText.ofNat n)

theorem ofNat_inj {m n : Nat} (h : ofNat m = ofNat n) : m = n := by
  have htext := congrArg NumText.text (Json.num.inj h)
  rw [NumText.text_ofNat, NumText.text_ofNat] at htext
  rw [← Nat.ofDigitChars_ten_toDigits (n := m), htext, Nat.ofDigitChars_ten_toDigits]

/-! ### Reading texts back

For texts as `print` writes them: no white space, the members where they are expected. -/

/-- Skip a text that is expected. -/
def skip : List Char → List Char → Option (List Char)
  | [], s => some s
  | _ :: _, [] => none
  | p :: ps, c :: s => if p = c then skip ps s else none

@[simp] theorem skip_append (ps s : List Char) : skip ps (ps ++ s) = some s := by
  induction ps with
  | nil => rfl
  | cons p ps ih => simpa [skip] using ih

/-- The characters of a string up to its closing quote, and what follows it. -/
def readChars : Nat → List Char → Option (List Char × List Char)
  | 0, _ => none
  | fuel + 1, s =>
      match unescape s with
      | some (c, s') => (readChars fuel s').map fun p => (c :: p.1, p.2)
      | none => (skip [quote] s).map fun s' => ([], s')

theorem readChars_printChars {cs s : List Char} {fuel : Nat} (h : cs.length < fuel) :
    readChars fuel (printChars cs ++ s) = some (cs, s) := by
  induction cs generalizing fuel with
  | nil =>
      cases fuel with
      | zero => exact absurd h (Nat.not_lt_zero _)
      | succ fuel => simp [readChars, printChars, unescape_quote, skip]
  | cons c cs ih =>
      cases fuel with
      | zero => exact absurd h (Nat.not_lt_zero _)
      | succ fuel =>
          have hread := ih (Nat.lt_of_succ_lt_succ h)
          simp [readChars, printChars, unescape_escape, hread]

theorem escape_ne_nil (c : Char) : escape c ≠ [] := by
  unfold escape
  repeat' split
  all_goals exact List.cons_ne_nil _ _

theorem length_lt_length_printChars (cs : List Char) : cs.length < (printChars cs).length := by
  induction cs with
  | nil => exact Nat.zero_lt_one
  | cons c cs ih =>
      have hescape := List.length_pos_iff.mpr (escape_ne_nil c)
      simp only [printChars, List.length_append, List.length_cons]
      omega

/-- A string, and what follows it. -/
def readStr (s : List Char) : Option (String × List Char) := do
  let s ← skip [quote] s
  let (cs, s) ← readChars s.length s
  some (String.ofList cs, s)

@[simp] theorem readStr_printStr (v : String) (s : List Char) :
    readStr (printStr v ++ s) = some (v, s) := by
  have hlength : v.toList.length < (printChars v.toList).length + s.length := by
    have := length_lt_length_printChars v.toList
    omega
  simp [readStr, printStr, skip, readChars_printChars hlength]

/-- The strings of an array after the first one, and what follows the array. -/
def readStrElems : Nat → List Char → Option (List String × List Char)
  | 0, _ => none
  | fuel + 1, s =>
      match skip [closeArr] s with
      | some s' => some ([], s')
      | none => do
          let s ← skip [comma] s
          let (v, s) ← readStr s
          let (vs, s) ← readStrElems fuel s
          some (v :: vs, s)

theorem readStrElems_printElems {vs : List String} {s : List Char} {fuel : Nat}
    (h : vs.length < fuel) :
    readStrElems fuel (printElems (vs.map .str) ++ s) = some (vs, s) := by
  induction vs generalizing fuel with
  | nil =>
      cases fuel with
      | zero => exact absurd h (Nat.not_lt_zero _)
      | succ fuel => simp [readStrElems, printElems, skip]
  | cons v vs ih =>
      cases fuel with
      | zero => exact absurd h (Nat.not_lt_zero _)
      | succ fuel =>
          have hread := ih (Nat.lt_of_succ_lt_succ h)
          have hcomma : closeArr ≠ comma := by decide
          simp [readStrElems, printElems, print, skip, hcomma, hread]

theorem length_lt_length_printElems (vs : List String) :
    vs.length < (printElems (vs.map .str)).length := by
  induction vs with
  | nil => exact Nat.zero_lt_one
  | cons v vs ih =>
      simp only [List.map_cons, printElems, List.length_cons, List.length_append]
      omega

/-- An array of strings, and what follows it. -/
def readStrArr (s : List Char) : Option (List String × List Char) := do
  let s ← skip [openArr] s
  match skip [closeArr] s with
  | some s' => some ([], s')
  | none => do
      let (v, s) ← readStr s
      let (vs, s) ← readStrElems s.length s
      some (v :: vs, s)

@[simp] theorem readStrArr_print (vs : List String) (s : List Char) :
    readStrArr (print (.arr (vs.map .str)) ++ s) = some (vs, s) := by
  cases vs with
  | nil => simp [readStrArr, print, skip]
  | cons v vs =>
      have hlength : vs.length < (printElems (vs.map .str)).length + s.length := by
        have := length_lt_length_printElems vs
        omega
      have hquote : skip [closeArr] (printStr v ++ (printElems (vs.map .str) ++ s)) = none := by
        have hne : closeArr ≠ quote := by decide
        simp [skip, printStr, hne]
      simp [readStrArr, print, skip, hquote, readStrElems_printElems hlength]

/-- What follows a key; `before` is the character before it. -/
def readKey (before : Char) (key : String) (s : List Char) : Option (List Char) :=
  skip (before :: (printStr key ++ [colon])) s

@[simp] theorem readKey_print (before : Char) (key : String) (s : List Char) :
    readKey before key (before :: (printStr key ++ colon :: s)) = some s := by
  have hskip := skip_append (before :: (printStr key ++ [colon])) s
  rwa [List.cons_append, List.append_assoc, List.singleton_append] at hskip

/-- A member with a string for its value, and what follows it. -/
def readMember (before : Char) (key : String) (s : List Char) : Option (String × List Char) :=
  (readKey before key s).bind readStr

@[simp] theorem readMember_print (before : Char) (key v : String) (s : List Char) :
    readMember before key (before :: (printStr key ++ colon :: (printStr v ++ s))) =
      some (v, s) := by
  rw [readMember, readKey_print, Option.bind_some, readStr_printStr]

end Json
end Lib
