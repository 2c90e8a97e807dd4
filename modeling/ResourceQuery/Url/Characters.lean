import ResourceQuery.Text.Split
import ResourceQuery.Text.Unshown

/-! # Characters of domains

The classes of characters that the rules of domains tell apart, as ranges of code points with both ends
included, in ascending order: characters that vanish from a domain, are refused in it, or stand for others;
marks, and letters that join one another; and the direction in which a character is read. -/

namespace ResourceQuery.Url

open Text (inRanges isMark)

/-- Characters that vanish from a domain. -/
def ignoredRanges : List (Nat × Nat) := [
    (0xAD, 0xAD), (0x34F, 0x34F), (0x115F, 0x1160), (0x17B4, 0x17B5), (0x180B, 0x180F), (0x200B, 0x200B),
    (0x2060, 0x2064), (0x206A, 0x206F), (0x3164, 0x3164), (0xFE00, 0xFE0F), (0xFEFF, 0xFEFF),
    (0xFFA0, 0xFFA0), (0x1BCA0, 0x1BCA3), (0x1D173, 0x1D17A), (0xE0100, 0xE01EF)]

/-- Characters that are shown and yet stand in no domain: those whose plain form holds a space, a point or a
separator of URLs, and descriptions of ideographs. -/
def refusedRanges : List (Nat × Nat) := [
    (0xA8, 0xA8), (0xAF, 0xAF), (0xB4, 0xB4), (0xB8, 0xB8), (0x2D8, 0x2DD), (0x37A, 0x37A), (0x384, 0x385),
    (0x1FBD, 0x1FBD), (0x1FBF, 0x1FC1), (0x1FCD, 0x1FCF), (0x1FDD, 0x1FDF), (0x1FED, 0x1FEE),
    (0x1FFD, 0x1FFE), (0x2017, 0x2017), (0x2024, 0x2026), (0x203E, 0x203E), (0x2047, 0x2049),
    (0x2100, 0x2101), (0x2105, 0x2106), (0x2488, 0x249B), (0x2A74, 0x2A74), (0x2FF0, 0x2FFF),
    (0x309B, 0x309C), (0x31EF, 0x31EF), (0x33C2, 0x33C2), (0x33C7, 0x33C7), (0x33D8, 0x33D8),
    (0xFC5E, 0xFC63), (0xFDFA, 0xFDFB), (0xFE12, 0xFE13), (0xFE16, 0xFE16), (0xFE19, 0xFE19),
    (0xFE30, 0xFE30), (0xFE47, 0xFE4C), (0xFE52, 0xFE52), (0xFE55, 0xFE56), (0xFE5F, 0xFE5F),
    (0xFE64, 0xFE65), (0xFE68, 0xFE68), (0xFE6A, 0xFE70), (0xFE72, 0xFE72), (0xFE74, 0xFE76),
    (0xFE78, 0xFE78), (0xFE7A, 0xFE7A), (0xFE7C, 0xFE7C), (0xFE7E, 0xFE7E), (0xFFE3, 0xFFE3),
    (0xFFFC, 0xFFFD), (0x1F100, 0x1F100)]

/-! ## Plain forms -/

/-- Characters that stand for ASCII text, in rows: the first code point of a row, and what it and those after
it stand for. -/
def plainRows : List (Nat × String) := [
    (0xAA, "a"), (0xB2, "2 3"), (0xB9, "1 o"), (0x132, "ij ij"), (0x17F, "s"), (0x1C7, "lj lj lj nj nj nj"),
    (0x1F1, "dz dz dz"), (0x2B0, "h"), (0x2B2, "j r"), (0x2B7, "w y"), (0x2E1, "l s x"), (0x37E, ";"),
    (0x1D2C, "a"), (0x1D2E, "b"), (0x1D30, "d e"), (0x1D33, "g h i j k l m n"), (0x1D3C, "o"),
    (0x1D3E, "p r t u w a"), (0x1D47, "b d e"), (0x1D4D, "g"), (0x1D4F, "k m"), (0x1D52, "o"),
    (0x1D56, "p t u"), (0x1D5B, "v"), (0x1D62, "i r u v"), (0x1D9C, "c"), (0x1DA0, "f"), (0x1DBB, "z"),
    (0x1FEF, "`"), (0x203C, "!!"), (0x2070, "0 i"), (0x2074, "4 5 6 7 8 9 +"),
    (0x207C, "= ( ) n 0 1 2 3 4 5 6 7 8 9 +"), (0x208C, "= ( )"), (0x2090, "a e o x"),
    (0x2095, "h k l m n p s t"), (0x20A8, "rs"), (0x2102, "c"), (0x210A, "g h h h h"), (0x2110, "i i l l"),
    (0x2115, "n no"), (0x2119, "p q r r r"), (0x2120, "sm tel tm"), (0x2124, "z"), (0x2128, "z"),
    (0x212A, "k"), (0x212C, "b c"), (0x212F, "e e f"), (0x2133, "m o"), (0x2139, "i"), (0x213B, "fax"),
    (0x2145, "d d e i j"), (0x2160, "i ii iii iv v vi vii viii ix x xi xii l c d m"),
    (0x2170, "i ii iii iv v vi vii viii ix x xi xii l c d m"),
    (0x2460, "1 2 3 4 5 6 7 8 9 10 11 12 13 14 15 16 17 18 19 20"),
    (0x2474, "(1) (2) (3) (4) (5) (6) (7) (8) (9)"),
    (0x247D, "(10) (11) (12) (13) (14) (15) (16) (17) (18) (19) (20)"),
    (0x249C, "(a) (b) (c) (d) (e) (f) (g) (h) (i) (j) (k) (l) (m) (n) (o) (p) (q) (r) (s) (t) (u) (v)"),
    (0x24B2, "(w) (x) (y) (z)"), (0x24B6, "a b c d e f g h i j k l m n o p q r s t u v w x y z"),
    (0x24D0, "a b c d e f g h i j k l m n o p q r s t u v w x y z"), (0x24EA, "0"), (0x2A75, "== ==="),
    (0x2C7C, "j v"), (0x3250, "pte 21 22 23 24 25 26 27 28 29 30 31 32 33 34 35"),
    (0x32B1, "36 37 38 39 40 41 42 43 44 45 46 47 48 49 50"), (0x32CC, "hg erg ev ltd"),
    (0x3371, "hpa da au bar ov pc dm dm2 dm3 iu"), (0x3380, "pa na"),
    (0x3383, "ma ka kb mb gb cal kcal pf nf"), (0x338E, "mg kg hz khz mhz ghz thz"),
    (0x3396, "ml dl kl fm nm"), (0x339C, "mm cm km mm2 cm2 m2 km2 mm3 cm3 m3 km3"),
    (0x33A9, "pa kpa mpa gpa rad"), (0x33B0, "ps ns"), (0x33B3, "ms pv nv"), (0x33B7, "mv kv mv pw nw"),
    (0x33BD, "mw kw mw"), (0x33C3, "bq cc cd"),
    (0x33C8, "db gy ha hp in kk km kt lm ln log lx mb mil mol ph"), (0x33D9, "ppm pr sr sv wb"),
    (0x33FF, "gal"), (0xA7F2, "c f q"), (0xFB00, "ff fi fl ffi ffl st st"), (0xFB29, "+"), (0xFE10, ","),
    (0xFE14, "; !"), (0xFE33, "_ _ ( ) \x7b \x7d"), (0xFE4D, "_ _ _ ,"), (0xFE54, ";"), (0xFE57, "!"),
    (0xFE59, "( ) \x7b \x7d"), (0xFE60, "& * + -"), (0xFE66, "="), (0xFE69, "$"), (0x107A5, "q"),
    (0x1CCD6, "a b c d e f g h i j k l m n o p q r s t u v w x y z"), (0x1CCF0, "0 1 2 3 4 5 6 7 8 9"),
    (0x1F101, "0, 1, 2, 3, 4, 5, 6, 7, 8, 9,"),
    (0x1F110, "(a) (b) (c) (d) (e) (f) (g) (h) (i) (j) (k) (l) (m) (n) (o) (p) (q) (r) (s) (t) (u) (v)"),
    (0x1F126, "(w) (x) (y) (z)"), (0x1F12B, "c r cd wz"),
    (0x1F130, "a b c d e f g h i j k l m n o p q r s t u v w x y z hv mv sd ss ppv wc"),
    (0x1F16A, "mc md mr"), (0x1F190, "dj"), (0x1FBF0, "0 1 2 3 4 5 6 7 8 9")]

/-- The ASCII text that a character stands for, if it is a form of one. Wide characters are in the order of
ASCII; the mathematical alphabets follow one another, and so do their numerals. -/
def plainForm? (n : Nat) : Option (List Char) :=
  if 0xFF01 ≤ n ∧ n ≤ 0xFF5E then some [Char.ofNat (n - 0xFEE0)]
  else if 0x1D400 ≤ n ∧ n ≤ 0x1D6A3 then some [Char.ofNat (0x61 + (n - 0x1D400) % 26)]
  else if 0x1D7CE ≤ n ∧ n ≤ 0x1D7FF then some [Char.ofNat (0x30 + (n - 0x1D7CE) % 10)]
  else plainRows.findSome? fun row =>
    if row.1 ≤ n then (Text.splitOn ' ' row.2.toList)[n - row.1]? else none

/-- Characters that stand for others beyond ASCII: in each row the first, the last and the step from one to
the next, with gaps where a character is refused or has a plain form. -/
def foldedRows : List (Nat × Nat × Nat) := [
    (0xB5, 0xB5, 1), (0xBC, 0xDE, 2), (0xBD, 0xBE, 1), (0xC1, 0xD6, 1), (0xD9, 0xDE, 1), (0x100, 0x136, 2),
    (0x139, 0x149, 2), (0x140, 0x141, 1), (0x14A, 0x178, 2), (0x179, 0x181, 2), (0x182, 0x186, 2),
    (0x187, 0x18B, 2), (0x18A, 0x18B, 1), (0x18E, 0x191, 1), (0x193, 0x194, 1), (0x196, 0x198, 1),
    (0x19C, 0x19D, 1), (0x19F, 0x1A0, 1), (0x1A2, 0x1A6, 2), (0x1A7, 0x1A9, 2), (0x1AC, 0x1AE, 2),
    (0x1AF, 0x1B7, 2), (0x1B2, 0x1B3, 1), (0x1B8, 0x1B8, 1), (0x1BC, 0x1BC, 1), (0x1C4, 0x1CD, 1),
    (0x1CF, 0x1DB, 2), (0x1DE, 0x1EE, 2), (0x1F4, 0x232, 2), (0x1F7, 0x1F8, 1), (0x23A, 0x23B, 1),
    (0x23D, 0x23E, 1), (0x241, 0x245, 2), (0x244, 0x24E, 2), (0x2B1, 0x2B6, 1), (0x2E0, 0x2E4, 1),
    (0x340, 0x341, 1), (0x343, 0x345, 1), (0x370, 0x376, 2), (0x37F, 0x3AB, 2), (0x386, 0x38F, 1),
    (0x392, 0x3AB, 1), (0x3CF, 0x3D6, 1), (0x3D8, 0x3F4, 2), (0x3F1, 0x3F2, 1), (0x3F5, 0x3F9, 2),
    (0x3FA, 0x3FA, 1), (0x3FD, 0x42F, 1), (0x460, 0x480, 2), (0x48A, 0x4C0, 2), (0x4C1, 0x4CD, 2),
    (0x4D0, 0x556, 2), (0x531, 0x556, 1), (0x587, 0x587, 1), (0x675, 0x678, 1), (0x958, 0x95F, 1),
    (0x9DC, 0x9DF, 1), (0xA33, 0xA33, 1), (0xA36, 0xA36, 1), (0xA59, 0xA5B, 1), (0xA5E, 0xA5E, 1),
    (0xB5C, 0xB5D, 1), (0xE33, 0xE33, 1), (0xEB3, 0xEB3, 1), (0xEDC, 0xEDD, 1), (0xF0C, 0xF0C, 1),
    (0xF43, 0xF43, 1), (0xF4D, 0xF4D, 1), (0xF52, 0xF52, 1), (0xF57, 0xF57, 1), (0xF5C, 0xF5C, 1),
    (0xF69, 0xF69, 1), (0xF73, 0xF79, 2), (0xF76, 0xF79, 1), (0xF81, 0xF81, 1), (0xF93, 0xF93, 1),
    (0xF9D, 0xF9D, 1), (0xFA2, 0xFA2, 1), (0xFA7, 0xFA7, 1), (0xFAC, 0xFAC, 1), (0xFB9, 0xFB9, 1),
    (0x10A0, 0x10CD, 1), (0x10FC, 0x10FC, 1), (0x13F8, 0x13FD, 1), (0x1C80, 0x1C89, 1), (0x1C90, 0x1CBF, 1),
    (0x1D2D, 0x1D2D, 1), (0x1D32, 0x1D4C, 2), (0x1D3D, 0x1D69, 2), (0x1D54, 0x1D6A, 1), (0x1D78, 0x1D78, 1),
    (0x1D9B, 0x1DBF, 1), (0x1E00, 0x1E94, 2), (0x1E9A, 0x1E9B, 1), (0x1E9E, 0x1EFE, 2), (0x1F08, 0x1F0F, 1),
    (0x1F18, 0x1F1D, 1), (0x1F28, 0x1F2F, 1), (0x1F38, 0x1F3F, 1), (0x1F48, 0x1F4D, 1), (0x1F59, 0x1F5F, 1),
    (0x1F68, 0x1F6F, 1), (0x1F71, 0x1FAF, 2), (0x1F80, 0x1FAF, 1), (0x1FB2, 0x1FB4, 1), (0x1FB7, 0x1FC4, 1),
    (0x1FC7, 0x1FCC, 1), (0x1FD3, 0x1FD3, 1), (0x1FD8, 0x1FDB, 1), (0x1FE3, 0x1FE3, 1), (0x1FE8, 0x1FF4, 1),
    (0x1FF7, 0x1FFC, 1), (0x2011, 0x2011, 1), (0x2033, 0x2034, 1), (0x2036, 0x2037, 1), (0x2057, 0x2057, 1),
    (0x207B, 0x2094, 1), (0x2103, 0x210F, 2), (0x2126, 0x2126, 1), (0x212B, 0x213F, 2), (0x2132, 0x2138, 1),
    (0x213C, 0x2140, 1), (0x2150, 0x215F, 1), (0x2183, 0x2183, 1), (0x2189, 0x2189, 1), (0x222C, 0x222D, 1),
    (0x222F, 0x2230, 1), (0x2329, 0x232A, 1), (0x2A0C, 0x2A0C, 1), (0x2ADC, 0x2ADC, 1), (0x2C00, 0x2C2F, 1),
    (0x2C60, 0x2C64, 2), (0x2C63, 0x2C64, 1), (0x2C67, 0x2C6F, 2), (0x2C6E, 0x2C72, 2), (0x2C75, 0x2C75, 1),
    (0x2C7E, 0x2CE2, 2), (0x2C7F, 0x2C80, 1), (0x2CEB, 0x2CED, 2), (0x2CF2, 0x2CF2, 1), (0x2D6F, 0x2D6F, 1),
    (0x2E9F, 0x2E9F, 1), (0x2EF3, 0x2FD5, 1), (0x3036, 0x303A, 2), (0x3039, 0x303A, 1), (0x309F, 0x309F, 1),
    (0x30FF, 0x30FF, 1), (0x3131, 0x318E, 1), (0x3192, 0x319F, 1), (0x3200, 0x3247, 1), (0x3260, 0x33FE, 2),
    (0x3261, 0x327E, 1), (0x3281, 0x33FE, 1), (0xA640, 0xA66C, 2), (0xA680, 0xA69C, 2), (0xA69D, 0xA69D, 1),
    (0xA722, 0xA72E, 2), (0xA732, 0xA770, 2), (0xA779, 0xA77D, 2), (0xA77E, 0xA786, 2), (0xA78B, 0xA78D, 2),
    (0xA790, 0xA792, 2), (0xA796, 0xA7C6, 2), (0xA7AB, 0xA7AE, 1), (0xA7B1, 0xA7B4, 1), (0xA7C5, 0xA7CB, 2),
    (0xA7CC, 0xA7DC, 2), (0xA7F5, 0xA7F5, 1), (0xA7F8, 0xA7F9, 1), (0xAB5C, 0xAB5F, 1), (0xAB69, 0xAB69, 1),
    (0xAB70, 0xABBF, 1), (0xF900, 0xFA0D, 1), (0xFA10, 0xFA12, 2), (0xFA15, 0xFA1E, 1), (0xFA20, 0xFA22, 2),
    (0xFA25, 0xFA26, 1), (0xFA2A, 0xFB1D, 1), (0xFB1F, 0xFBB1, 1), (0xFBD3, 0xFD3D, 1), (0xFD50, 0xFDC7, 1),
    (0xFDF0, 0xFDFC, 1), (0xFE11, 0xFE18, 1), (0xFE31, 0xFE44, 1), (0xFE51, 0xFE71, 1), (0xFE77, 0xFFEE, 1),
    (0x10400, 0x10427, 1), (0x104B0, 0x104D3, 1), (0x10570, 0x10595, 1), (0x10781, 0x107BA, 1),
    (0x10C80, 0x10CB2, 1), (0x10D50, 0x10D65, 1), (0x118A0, 0x118BF, 1), (0x16E40, 0x16E5F, 1),
    (0x1D15E, 0x1D164, 1), (0x1D1BB, 0x1D1C0, 1), (0x1D6A4, 0x1D7CB, 1), (0x1E030, 0x1E06D, 1),
    (0x1E900, 0x1E921, 1), (0x1EE00, 0x1EEBB, 1), (0x1F12A, 0x1F12A, 1), (0x1F200, 0x1F251, 1),
    (0x2F800, 0x2FA1D, 1)]

/-- Whether a character stands for another one beyond ASCII. -/
def isFolded (c : Char) : Bool :=
  foldedRows.any fun (first, last, step) =>
    first ≤ c.toNat && c.toNat ≤ last && (c.toNat - first) % step == 0

/-! ## Marks and joins -/

/-- Marks that take a place of their own beside the character that they belong to. -/
def spacingMarkRanges : List (Nat × Nat) := [
    (0x903, 0x903), (0x93B, 0x93B), (0x93E, 0x940), (0x949, 0x94C), (0x94E, 0x94F), (0x982, 0x983),
    (0x9BE, 0x9C0), (0x9C7, 0x9CC), (0x9D7, 0x9D7), (0xA03, 0xA03), (0xA3E, 0xA40), (0xA83, 0xA83),
    (0xABE, 0xAC0), (0xAC9, 0xACC), (0xB02, 0xB03), (0xB3E, 0xB3E), (0xB40, 0xB40), (0xB47, 0xB4C),
    (0xB57, 0xB57), (0xBBE, 0xBBF), (0xBC1, 0xBCC), (0xBD7, 0xBD7), (0xC01, 0xC03), (0xC41, 0xC44),
    (0xC82, 0xC83), (0xCBE, 0xCBE), (0xCC0, 0xCC4), (0xCC7, 0xCCB), (0xCD5, 0xCD6), (0xCF3, 0xCF3),
    (0xD02, 0xD03), (0xD3E, 0xD40), (0xD46, 0xD4C), (0xD57, 0xD57), (0xD82, 0xD83), (0xDCF, 0xDD1),
    (0xDD8, 0xDDF), (0xDF2, 0xDF3), (0xF3E, 0xF3F), (0xF7F, 0xF7F), (0x102B, 0x102C), (0x1031, 0x1031),
    (0x1038, 0x1038), (0x103B, 0x103C), (0x1056, 0x1057), (0x1062, 0x1064), (0x1067, 0x106D),
    (0x1083, 0x1084), (0x1087, 0x108C), (0x108F, 0x108F), (0x109A, 0x109C), (0x1715, 0x1715),
    (0x1734, 0x1734), (0x17B6, 0x17B6), (0x17BE, 0x17C5), (0x17C7, 0x17C8), (0x1923, 0x1926),
    (0x1929, 0x1931), (0x1933, 0x1938), (0x1A19, 0x1A1A), (0x1A55, 0x1A55), (0x1A57, 0x1A57),
    (0x1A61, 0x1A61), (0x1A63, 0x1A64), (0x1A6D, 0x1A72), (0x1B04, 0x1B04), (0x1B35, 0x1B35),
    (0x1B3B, 0x1B3B), (0x1B3D, 0x1B41), (0x1B43, 0x1B44), (0x1B82, 0x1B82), (0x1BA1, 0x1BA1),
    (0x1BA6, 0x1BA7), (0x1BAA, 0x1BAA), (0x1BE7, 0x1BE7), (0x1BEA, 0x1BEC), (0x1BEE, 0x1BEE),
    (0x1BF2, 0x1BF3), (0x1C24, 0x1C2B), (0x1C34, 0x1C35), (0x1CE1, 0x1CE1), (0x1CF7, 0x1CF7),
    (0x302E, 0x302F), (0xA823, 0xA824), (0xA827, 0xA827), (0xA880, 0xA881), (0xA8B4, 0xA8C3),
    (0xA952, 0xA953), (0xA983, 0xA983), (0xA9B4, 0xA9B5), (0xA9BA, 0xA9BB), (0xA9BE, 0xA9C0),
    (0xAA2F, 0xAA30), (0xAA33, 0xAA34), (0xAA4D, 0xAA4D), (0xAA7B, 0xAA7B), (0xAA7D, 0xAA7D),
    (0xAAEB, 0xAAEB), (0xAAEE, 0xAAEF), (0xAAF5, 0xAAF5), (0xABE3, 0xABE4), (0xABE6, 0xABE7),
    (0xABE9, 0xABEA), (0xABEC, 0xABEC), (0x11000, 0x11000), (0x11002, 0x11002), (0x11082, 0x11082),
    (0x110B0, 0x110B2), (0x110B7, 0x110B8), (0x1112C, 0x1112C), (0x11145, 0x11146), (0x11182, 0x11182),
    (0x111B3, 0x111B5), (0x111BF, 0x111C0), (0x111CE, 0x111CE), (0x1122C, 0x1122E), (0x11232, 0x11233),
    (0x11235, 0x11235), (0x112E0, 0x112E2), (0x11302, 0x11303), (0x1133E, 0x1133F), (0x11341, 0x1134D),
    (0x11357, 0x11357), (0x11362, 0x11363), (0x113B8, 0x113BA), (0x113C2, 0x113CD), (0x113CF, 0x113CF),
    (0x11435, 0x11437), (0x11440, 0x11441), (0x11445, 0x11445), (0x114B0, 0x114B2), (0x114B9, 0x114B9),
    (0x114BB, 0x114BE), (0x114C1, 0x114C1), (0x115AF, 0x115B1), (0x115B8, 0x115BB), (0x115BE, 0x115BE),
    (0x11630, 0x11632), (0x1163B, 0x1163C), (0x1163E, 0x1163E), (0x116AC, 0x116AC), (0x116AE, 0x116AF),
    (0x116B6, 0x116B6), (0x11720, 0x11721), (0x11726, 0x11726), (0x1182C, 0x1182E), (0x11838, 0x11838),
    (0x11930, 0x11938), (0x1193D, 0x1193D), (0x11940, 0x11940), (0x11942, 0x11942), (0x119D1, 0x119D3),
    (0x119DC, 0x119DF), (0x119E4, 0x119E4), (0x11A39, 0x11A39), (0x11A57, 0x11A58), (0x11A97, 0x11A97),
    (0x11C2F, 0x11C2F), (0x11C3E, 0x11C3E), (0x11CA9, 0x11CA9), (0x11CB1, 0x11CB1), (0x11CB4, 0x11CB4),
    (0x11D8A, 0x11D8E), (0x11D93, 0x11D94), (0x11D96, 0x11D96), (0x11EF5, 0x11EF6), (0x11F03, 0x11F03),
    (0x11F34, 0x11F35), (0x11F3E, 0x11F3F), (0x11F41, 0x11F41), (0x1612A, 0x1612C), (0x16F51, 0x16F87),
    (0x16FF0, 0x16FF1), (0x1D165, 0x1D166), (0x1D16D, 0x1D172)]

/-- Marks that take the vowel from a consonant. -/
def vowelKillerRanges : List (Nat × Nat) := [
    (0x94D, 0x94D), (0x9CD, 0x9CD), (0xA4D, 0xA4D), (0xACD, 0xACD), (0xB4D, 0xB4D), (0xBCD, 0xBCD),
    (0xC4D, 0xC4D), (0xCCD, 0xCCD), (0xD3B, 0xD3C), (0xD4D, 0xD4D), (0xDCA, 0xDCA), (0xE3A, 0xE3A),
    (0xEBA, 0xEBA), (0xF84, 0xF84), (0x1039, 0x103A), (0x1714, 0x1715), (0x1734, 0x1734), (0x17D2, 0x17D2),
    (0x1A60, 0x1A60), (0x1B44, 0x1B44), (0x1BAA, 0x1BAB), (0x1BF2, 0x1BF3), (0x2D7F, 0x2D7F),
    (0xA806, 0xA806), (0xA82C, 0xA82C), (0xA8C4, 0xA8C4), (0xA953, 0xA953), (0xA9C0, 0xA9C0),
    (0xAAF6, 0xAAF6), (0xABED, 0xABED), (0x10A3F, 0x10A3F), (0x11046, 0x11046), (0x11070, 0x11070),
    (0x1107F, 0x1107F), (0x110B9, 0x110B9), (0x11133, 0x11134), (0x111C0, 0x111C0), (0x11235, 0x11235),
    (0x112EA, 0x112EA), (0x1134D, 0x1134D), (0x113CE, 0x113D0), (0x11442, 0x11442), (0x114C2, 0x114C2),
    (0x115BF, 0x115BF), (0x1163F, 0x1163F), (0x116B6, 0x116B6), (0x1172B, 0x1172B), (0x11839, 0x11839),
    (0x1193D, 0x1193E), (0x119E0, 0x119E0), (0x11A34, 0x11A34), (0x11A47, 0x11A47), (0x11A99, 0x11A99),
    (0x11C3F, 0x11C3F), (0x11D44, 0x11D45), (0x11D97, 0x11D97), (0x11F41, 0x11F42), (0x1612F, 0x1612F)]

/-- Letters that join the next one. -/
def joinsNextRanges : List (Nat × Nat) := [
    (0x620, 0x620), (0x626, 0x626), (0x628, 0x628), (0x62A, 0x62E), (0x633, 0x63F), (0x641, 0x647),
    (0x649, 0x64A), (0x66E, 0x66F), (0x678, 0x687), (0x69A, 0x6BF), (0x6C1, 0x6C2), (0x6CC, 0x6CC),
    (0x6CE, 0x6CE), (0x6D0, 0x6D1), (0x6FA, 0x6FC), (0x6FF, 0x6FF), (0x712, 0x714), (0x71A, 0x71D),
    (0x71F, 0x727), (0x729, 0x729), (0x72B, 0x72B), (0x72D, 0x72E), (0x74E, 0x758), (0x75C, 0x76A),
    (0x76D, 0x770), (0x772, 0x772), (0x775, 0x777), (0x77A, 0x77F), (0x7CA, 0x7EA), (0x841, 0x845),
    (0x848, 0x848), (0x84A, 0x853), (0x855, 0x855), (0x860, 0x860), (0x862, 0x865), (0x868, 0x868),
    (0x886, 0x886), (0x889, 0x88D), (0x8A0, 0x8A9), (0x8AF, 0x8B0), (0x8B3, 0x8B8), (0x8BA, 0x8C8),
    (0x1807, 0x1807), (0x1820, 0x1878), (0x1887, 0x18AA), (0xA840, 0xA872), (0xFB52, 0xFB81),
    (0xFB8E, 0xFBA3), (0xFBA6, 0xFBAD), (0xFBD3, 0xFBD6), (0xFBE4, 0xFC5A), (0xFC5D, 0xFCF1),
    (0xFCF5, 0xFD3B), (0xFD50, 0xFDC7), (0xFDF0, 0xFDF1), (0xFDF4, 0xFDF5), (0xFDF7, 0xFDF7),
    (0xFDF9, 0xFDF9), (0xFE89, 0xFE8C), (0xFE8F, 0xFE92), (0xFE95, 0xFEA8), (0xFEB1, 0xFEEC),
    (0xFEEF, 0xFEFC), (0x10AC0, 0x10AC4), (0x10ACD, 0x10ACD), (0x10AD3, 0x10ADC), (0x10ADE, 0x10AE0),
    (0x10AEB, 0x10AEE), (0x10B80, 0x10B80), (0x10B82, 0x10B82), (0x10B86, 0x10B88), (0x10B8A, 0x10B8B),
    (0x10B8D, 0x10B8D), (0x10B90, 0x10B90), (0x10BAD, 0x10BAE), (0x10D00, 0x10D21), (0x10D23, 0x10D23),
    (0x10EC3, 0x10EC4), (0x10F30, 0x10F32), (0x10F34, 0x10F44), (0x10F51, 0x10F53), (0x10F70, 0x10F73),
    (0x10F76, 0x10F81), (0x10FB0, 0x10FB0), (0x10FB2, 0x10FB3), (0x10FB8, 0x10FB8), (0x10FBB, 0x10FBC),
    (0x10FBE, 0x10FBF), (0x10FC1, 0x10FC1), (0x10FC4, 0x10FC4), (0x10FCA, 0x10FCB), (0x1E900, 0x1E943),
    (0x1EE01, 0x1EE02), (0x1EE07, 0x1EE12), (0x1EE14, 0x1EE17), (0x1EE19, 0x1EE7E), (0x1EE81, 0x1EE82),
    (0x1EE84, 0x1EE84), (0x1EE87, 0x1EE92), (0x1EE94, 0x1EE97), (0x1EE99, 0x1EEA2), (0x1EEA7, 0x1EEB2),
    (0x1EEB4, 0x1EEB7), (0x1EEB9, 0x1EEBB)]

/-- Letters that join the one before them. -/
def joinsPreviousRanges : List (Nat × Nat) := [
    (0x620, 0x620), (0x622, 0x63F), (0x641, 0x64A), (0x66E, 0x673), (0x675, 0x6D3), (0x6D5, 0x6D5),
    (0x6EE, 0x6EF), (0x6FA, 0x6FC), (0x6FF, 0x6FF), (0x710, 0x77F), (0x7CA, 0x7EA), (0x840, 0x858),
    (0x860, 0x860), (0x862, 0x865), (0x867, 0x882), (0x886, 0x886), (0x889, 0x8AC), (0x8AE, 0x8C8),
    (0x1807, 0x1807), (0x1820, 0x1878), (0x1887, 0x18AA), (0xA840, 0xA871), (0xFB50, 0xFBB1),
    (0xFBD3, 0xFCF1), (0xFCF5, 0xFD3D), (0xFD50, 0xFDC7), (0xFDF0, 0xFDFC), (0xFE81, 0xFEFC),
    (0x10AC0, 0x10AC5), (0x10AC7, 0x10AC7), (0x10AC9, 0x10ACA), (0x10ACE, 0x10AD6), (0x10AD8, 0x10AE1),
    (0x10AE4, 0x10AEF), (0x10B80, 0x10B91), (0x10BA9, 0x10BAE), (0x10D01, 0x10D23), (0x10EC2, 0x10EC4),
    (0x10F30, 0x10F44), (0x10F51, 0x10F54), (0x10F70, 0x10F81), (0x10FB0, 0x10FB0), (0x10FB2, 0x10FB6),
    (0x10FB8, 0x10FBF), (0x10FC1, 0x10FC4), (0x10FC9, 0x10FCA), (0x1E900, 0x1E943), (0x1EE00, 0x1EEBB)]

/-- What keeps two letters from joining, and has no width. -/
def nonJoiner : Char := '\u200C'

/-- What makes two letters join, and has no width. -/
def joiner : Char := '\u200D'

/-- Whether a character is a mark that takes a place of its own. -/
def isSpacingMark (c : Char) : Bool := inRanges spacingMarkRanges c.toNat

/-- Whether a character is a mark that takes no place. -/
def isPlacelessMark (c : Char) : Bool := isMark c && !isSpacingMark c && c != nonJoiner

/-- Whether a character takes the vowel from the one before it. -/
def isVowelKiller (c : Char) : Bool := inRanges vowelKillerRanges c.toNat

/-- Whether a letter joins the next one. -/
def joinsNext (c : Char) : Bool := inRanges joinsNextRanges c.toNat

/-- Whether a letter joins the one before it. -/
def joinsPrevious (c : Char) : Bool := inRanges joinsPreviousRanges c.toNat

/-! ## Directions -/

/-- **How a character is read** in a text that may have letters from right to left. -/
inductive Direction where
  | leftToRight
  | rightToLeft
  | number
  | arabicNumber
  | neutral
  | mark
deriving DecidableEq, Repr

/-- Characters that are read in the direction of those around them. -/
def neutralRanges : List (Nat × Nat) := [
    (0x21, 0x2E), (0x3B, 0x60), (0x7B, 0xB1), (0xB6, 0xBB), (0xBF, 0xBF), (0xD7, 0xD7), (0xF7, 0xF7),
    (0x2B9, 0x2BA), (0x2C2, 0x2CF), (0x2D2, 0x2DF), (0x2E5, 0x2ED), (0x2EF, 0x2FF), (0x374, 0x375),
    (0x387, 0x387), (0x3F6, 0x3F6), (0x58A, 0x58F), (0x606, 0x607), (0x609, 0x60A), (0x60C, 0x60C),
    (0x60E, 0x60F), (0x66A, 0x66A), (0x6DE, 0x6DE), (0x6E9, 0x6E9), (0x7F6, 0x7F9), (0x9F2, 0x9F3),
    (0x9FB, 0x9FB), (0xAF1, 0xAF1), (0xBF3, 0xBFA), (0xC78, 0xC7E), (0xE3F, 0xE3F), (0xF3A, 0xF3D),
    (0x1390, 0x1399), (0x1400, 0x1400), (0x169B, 0x169C), (0x17DB, 0x17DB), (0x17F0, 0x180A),
    (0x1940, 0x1945), (0x19DE, 0x19FF), (0x200C, 0x208B), (0x20A0, 0x20C0), (0x2103, 0x2104),
    (0x2108, 0x2109), (0x2114, 0x2125), (0x2127, 0x2129), (0x212E, 0x212E), (0x213A, 0x213A),
    (0x2140, 0x214D), (0x218A, 0x2335), (0x237B, 0x2394), (0x2396, 0x26AB), (0x26AD, 0x27FF),
    (0x2900, 0x2BFF), (0x2CE5, 0x2CEA), (0x2CF9, 0x2CFF), (0x2E00, 0x2E9E), (0x2EA0, 0x2EF2),
    (0x3001, 0x3004), (0x3008, 0x3020), (0x3030, 0x3030), (0x3036, 0x3037), (0x303D, 0x303F),
    (0x30A0, 0x30A0), (0x30FB, 0x30FB), (0x31C0, 0x31E3), (0x3200, 0x3243), (0x4DC0, 0x4DFF),
    (0xA490, 0xA4C6), (0xA60D, 0xA60F), (0xA673, 0xA673), (0xA67E, 0xA67F), (0xA700, 0xA721),
    (0xA788, 0xA788), (0xA828, 0xA82B), (0xA838, 0xA839), (0xA874, 0xA877), (0xAB6A, 0xAB6B),
    (0xFD3E, 0xFD4F), (0xFDCF, 0xFDCF), (0xFDFD, 0xFE18), (0xFE31, 0xFE5E), (0xFF5F, 0xFF65),
    (0xFFE0, 0xFFEE), (0x10101, 0x10101), (0x10140, 0x1018C), (0x10190, 0x101A0), (0x1091F, 0x1091F),
    (0x10B39, 0x10B3F), (0x10D6E, 0x10D6E), (0x11052, 0x11065), (0x11660, 0x1166C), (0x11FD5, 0x11FF1),
    (0x16FE2, 0x16FE2), (0x1CC00, 0x1CEB3), (0x1D1E9, 0x1D241), (0x1D245, 0x1D245), (0x1D300, 0x1D356),
    (0x1D6C1, 0x1D6C1), (0x1D6DB, 0x1D6DB), (0x1D6FB, 0x1D6FB), (0x1D715, 0x1D715), (0x1D735, 0x1D735),
    (0x1D74F, 0x1D74F), (0x1D76F, 0x1D76F), (0x1D789, 0x1D789), (0x1D7A9, 0x1D7A9), (0x1D7C3, 0x1D7C3),
    (0x1E2FF, 0x1E2FF), (0x1EEF0, 0x1F12F), (0x1F16D, 0x1F16F), (0x1F1AD, 0x1F1AD), (0x1F240, 0x1F248),
    (0x1F260, 0x1FBEF)]

/-- Digits that are read from left to right. -/
def numberRanges : List (Nat × Nat) := [
    (0x30, 0x39), (0x6F0, 0x6F9), (0x102E1, 0x102FB)]

/-- Digits among letters from right to left. -/
def arabicNumberRanges : List (Nat × Nat) := [
    (0x660, 0x669), (0x66B, 0x66C), (0x10D30, 0x10D39), (0x10E60, 0x10E7E)]

/-- Where the letters from right to left are; characters of the other classes stand between them. -/
def rightToLeftRanges : List (Nat × Nat) := [
    (0x5BE, 0x8C9), (0x2135, 0x2138), (0xFB1D, 0xFEFC), (0x10800, 0x10FF6), (0x1E800, 0x1EEBB)]

/-- The direction of a character. -/
def direction (c : Char) : Direction :=
  let n := c.toNat
  if inRanges neutralRanges n then .neutral
  else if inRanges numberRanges n then .number
  else if inRanges arabicNumberRanges n then .arabicNumber
  else if isPlacelessMark c then .mark
  else if inRanges rightToLeftRanges n then .rightToLeft
  else .leftToRight

end ResourceQuery.Url
