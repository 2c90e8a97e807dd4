import Mathlib.Data.List.DropRight
import ResourceQuery.Target

/-! # Names in paths

Every name without a slash can be reached, as a relation and as a function (`parse_escaped_name`): its octets
are escaped, at least those that must be, and it is written below the base path. The path is unescaped before
it is cut, which takes no name apart: only a slash in the name could begin a segment. What follows the name
adds segments behind it and changes none before (`splitOn_trimSlashes`), whatever is escaped there. It matters
only behind a relation that is called like the segment before functions, where a second segment would be a
function. -/

namespace ResourceQuery

namespace Text

theorem rdropWhile_append {p : Char → Bool} {a : List Char} (ha : a.rdropWhile p = a) (rest : List Char) :
    (a ++ rest).rdropWhile p = a ++ rest.rdropWhile p := by
  rw [List.rdropWhile, List.reverse_append, List.dropWhile_append, List.rdropWhile]
  split
  case isTrue h =>
    rw [List.isEmpty_iff] at h
    rw [h, List.reverse_nil, List.append_nil]
    exact ha
  case isFalse => rw [List.reverse_append, List.reverse_reverse]

end Text

namespace Target

/-! ## Segments -/

theorem trimSlashes_append {a : List Char} (hne : a ≠ []) (hhead : a.head? ≠ some '/')
    (hlast : a.getLast? ≠ some '/') (rest : List Char) :
    trimSlashes ('/' :: (a ++ rest)) = a ++ rest.rdropWhile (· == '/') := by
  have hfront : ('/' :: (a ++ rest)).dropWhile (· == '/') = a ++ rest := by
    obtain ⟨c, cs, rfl⟩ := List.exists_cons_of_ne_nil hne
    have hc : ¬ (c == '/') = true := by simpa using hhead
    rw [List.dropWhile_cons_of_pos (by rfl), List.cons_append]
    exact List.dropWhile_cons_of_neg hc
  have hend : a.rdropWhile (· == '/') = a := by
    refine List.rdropWhile_eq_self_iff.mpr fun hl => ?_
    simpa [List.getLast?_eq_getLast_of_ne_nil hl] using hlast
  rw [trimSlashes, hfront]
  exact Text.rdropWhile_append hend rest

/-- **What follows a text in a path adds segments to those of the text**, if it begins with a slash, and none
if it is nothing but slashes. -/
theorem splitOn_trimSlashes {a rest : List Char} (hne : a ≠ []) (hhead : a.head? ≠ some '/')
    (hlast : a.getLast? ≠ some '/') (hrest : ∀ c ∈ rest.head?, c = '/') :
    ∃ more, Text.splitOn '/' (trimSlashes ('/' :: (a ++ rest))) = Text.splitOn '/' a ++ more ∧
      ((∀ c ∈ rest, c = '/') → more = []) := by
  rw [trimSlashes_append hne hhead hlast]
  cases hkept : rest.rdropWhile (· == '/') with
  | nil => exact ⟨[], by simp, fun _ => rfl⟩
  | cons c cs =>
    obtain ⟨dropped, hrest'⟩ : c :: cs <+: rest := hkept ▸ List.rdropWhile_prefix _ _
    have hc : c = '/' := hrest c (by rw [← hrest']; rfl)
    rw [hc, Text.splitOn_append_cons]
    refine ⟨_, rfl, fun hall => ?_⟩
    rw [List.rdropWhile_eq_nil_iff.mpr (by simpa using hall)] at hkept
    cases hkept

theorem ofSegments_singleton {first : List Char} (hne : first ≠ []) :
    ofSegments [first] = relation (some (String.ofList first)) := if_neg hne

theorem ofSegments_cons {first : List Char} (hne : first ≠ []) (hrpc : first ≠ "rpc".toList)
    (more : List (List Char)) : ofSegments (first :: more) = relation (some (String.ofList first)) := by
  cases more with
  | nil => exact ofSegments_singleton hne
  | cons second more => rw [ofSegments, if_neg fun h => hrpc h.1, if_neg hne]

theorem ofSegments_rpc {second : List Char} (hne : second ≠ []) (more : List (List Char)) :
    ofSegments ("rpc".toList :: second :: more) = function (String.ofList second) := if_pos ⟨rfl, hne⟩

/-! ## Paths -/

theorem ofChars_append (base path : List Char) :
    ofChars (base ++ path) base = ofSegments (Text.splitOn '/' (trimSlashes path)) := by
  rw [ofChars, Text.dropLead?_append, Option.getD_some]

theorem eq_slash_of_mem_head?_decode {tail : List Char} (htail : ∀ c ∈ tail.head?, c = '/') :
    ∀ c ∈ (Text.Percent.decode tail).head?, c = '/' := by
  cases tail with
  | nil => rw [Text.Percent.decode_of_not_mem (by simp)]; exact htail
  | cons c cs =>
    obtain rfl : c = '/' := htail c rfl
    rw [← List.singleton_append, Text.Percent.decode_append (by decide)]
    simp

section Escaped

variable {base name written : String} (hbase : '%' ∉ base.toList) (hne : name ≠ "")
  (hslash : '/' ∉ name.toList)
  (hwritten : Text.Percent.Escaped (Text.Utf8.encode name.toList) written.toList)

include hbase hne hslash hwritten

/-- **The segments of a path with an escaped name in it**: those up to the name, the name, and what follows. -/
theorem exists_parse_eq (lead : String) (inner : List Char) (hlead : lead.toList = '/' :: inner)
    (hpercent : '%' ∉ inner) (hhead : (inner ++ name.toList).head? ≠ some '/') {tail : String}
    (htail : ∀ c ∈ tail.toList.head?, c = '/') :
    ∃ more, parse (base ++ lead ++ written ++ tail) base =
        ofSegments (Text.splitOn '/' (inner ++ name.toList) ++ more) ∧
      ((∀ c ∈ tail.toList, c = '/') → more = []) := by
  have hnil : name.toList ≠ [] := by simpa using hne
  have hlast : (inner ++ name.toList).getLast? ≠ some '/' := by
    rw [List.getLast?_append_of_ne_nil _ hnil]
    exact fun h => hslash (List.mem_of_mem_getLast? h)
  have hlead' : '%' ∉ lead.toList := by simpa [hlead] using hpercent
  -- The name is all that unescaping changes before the tail, so the base path is still at the front.
  have hdecode : Text.Percent.decode (base ++ lead ++ written ++ tail).toList =
      base.toList ++ '/' :: (inner ++ name.toList ++ Text.Percent.decode tail.toList) := by
    simp only [String.toList_append, List.append_assoc]
    rw [Text.Percent.decode_append hbase, Text.Percent.decode_append hlead',
      Text.Percent.decode_append_of_escaped hwritten, hlead, List.cons_append]
  obtain ⟨more, hmore, hall⟩ := splitOn_trimSlashes (by simp [hnil]) hhead hlast
    (eq_slash_of_mem_head?_decode htail)
  refine ⟨more, by rw [parse, hdecode, ofChars_append, hmore], fun h => hall ?_⟩
  rwa [Text.Percent.decode_of_not_mem fun hmem => absurd (h '%' hmem) (by decide)]

theorem exists_parse_slash (tail : String) (htail : ∀ c ∈ tail.toList.head?, c = '/') :
    ∃ more, parse (base ++ "/" ++ written ++ tail) base = ofSegments (name.toList :: more) ∧
      ((∀ c ∈ tail.toList, c = '/') → more = []) := by
  have hhead : name.toList.head? ≠ some '/' := fun h => hslash (List.mem_of_mem_head? h)
  have h := exists_parse_eq hbase hne hslash hwritten "/" [] rfl (by simp) hhead htail
  rwa [List.nil_append, Text.splitOn_of_not_mem hslash] at h

theorem parse_rpc (tail : String) (htail : ∀ c ∈ tail.toList.head?, c = '/') :
    parse (base ++ "/rpc/" ++ written ++ tail) base = function name := by
  obtain ⟨more, hparse, -⟩ := exists_parse_eq hbase hne hslash hwritten "/rpc/" ("rpc".toList ++ ['/'])
    rfl (by decide) (by simp) htail
  rw [List.append_assoc, List.singleton_append, Text.splitOn_append (by decide),
    Text.splitOn_of_not_mem hslash] at hparse
  rw [hparse]
  exact (ofSegments_rpc (by simpa using hne) more).trans (by rw [String.ofList_toList])

end Escaped

/-- **Every name without a slash is reached by its escaped forms**, one of which has all octets escaped. Below
the base path each of them is the relation, with any slashes behind it, and with anything behind a slash unless
the name is that of the segment before functions. Behind this segment it is the function, with nothing or with
anything behind a slash. -/
theorem parse_escaped_name {base name : String} (hbase : '%' ∉ base.toList) (hne : name ≠ "")
    (hslash : '/' ∉ name.toList) :
    Text.Percent.Escaped (Text.Utf8.encode name.toList) (Text.Percent.encode (fun _ => true) name.toList) ∧
    ∀ written : String, Text.Percent.Escaped (Text.Utf8.encode name.toList) written.toList →
      (∀ n, parse (base ++ "/" ++ written ++ String.ofList (List.replicate n '/')) base =
        relation (some name)) ∧
      (name ≠ "rpc" → ∀ rest, parse (base ++ "/" ++ written ++ ("/" ++ rest)) base = relation (some name)) ∧
      parse (base ++ "/rpc/" ++ written) base = function name ∧
      ∀ rest, parse (base ++ "/rpc/" ++ written ++ ("/" ++ rest)) base = function name := by
  have hnil : name.toList ≠ [] := by simpa using hne
  refine ⟨Text.Percent.escaped_encode (by simp) _, fun written hwritten => ⟨fun n => ?_, fun hrpc rest => ?_,
    ?_, fun rest => parse_rpc hbase hne hslash hwritten _ (by simp)⟩⟩
  · have hall : ∀ c ∈ (String.ofList (List.replicate n '/')).toList, c = '/' := by simp
    obtain ⟨more, hparse, hmore⟩ := exists_parse_slash hbase hne hslash hwritten
      (String.ofList (List.replicate n '/')) fun c hc => hall c (List.mem_of_mem_head? hc)
    rw [hparse, hmore hall, ofSegments_singleton hnil, String.ofList_toList]
  · obtain ⟨more, hparse, -⟩ := exists_parse_slash hbase hne hslash hwritten ("/" ++ rest) (by simp)
    rw [hparse, ofSegments_cons hnil fun h => hrpc (String.toList_inj.mp h), String.ofList_toList]
  · have h := parse_rpc hbase hne hslash hwritten "" (by simp)
    rwa [String.append_empty] at h

/-- A name with a percent sign and a letter of two octets, escaped with digits in either case and not all over.
The base path has such a letter as it is, and what follows has a slash that is escaped and a percent sign that
escapes nothing. -/
theorem parse_escaped_name_percent :
    let base := "/ä"
    let name := "50%é"
    let written := "%350%25%c3%A9"
    '%' ∉ base.toList ∧ name ≠ "" ∧ '/' ∉ name.toList ∧ name ≠ "rpc" ∧
      Text.Percent.Escaped (Text.Utf8.encode name.toList) written.toList ∧
      parse (base ++ "/" ++ written ++ "//") base = relation (some name) ∧
      parse (base ++ "/" ++ written ++ "/%2F%") base = relation (some name) ∧
      parse (base ++ "/rpc/" ++ written) base = function name ∧
      parse (base ++ "/rpc/" ++ written ++ "/%2F%") base = function name := by
  intro base name written
  have hbase : '%' ∉ base.toList := by decide
  have hslash : '/' ∉ name.toList := by decide
  have hoctets : Text.Utf8.encode name.toList =
      [UInt8.ofNat (16 * 3 + 5), UInt8.ofNat '0'.toNat, UInt8.ofNat (16 * 2 + 5), UInt8.ofNat (16 * 12 + 3),
        UInt8.ofNat (16 * 10 + 9)] := by decide
  have hchars : written.toList = ['%', '3', '5', '0', '%', '2', '5', '%', 'c', '3', '%', 'A', '9'] := by decide
  have hwritten : Text.Percent.Escaped (Text.Utf8.encode name.toList) written.toList := by
    rw [hoctets, hchars]
    exact .octet (by decide) (by decide) (.plain (by decide) (by decide) (.octet (by decide) (by decide)
      (.octet (by decide) (by decide) (.octet (by decide) (by decide) .nil))))
  obtain ⟨-, h⟩ := parse_escaped_name hbase (by decide) hslash
  obtain ⟨hslashes, hrest, hfunction, hbehind⟩ := h written hwritten
  exact ⟨hbase, by decide, hslash, by decide, hwritten, hslashes 2, hrest (by decide) "%2F%", hfunction,
    hbehind "%2F%"⟩

end Target

end ResourceQuery
