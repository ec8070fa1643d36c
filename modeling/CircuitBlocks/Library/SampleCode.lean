import CircuitBlocks.Hex

/-!
# The machine code of sample libraries

A sample library is a shared library for 64-bit Linux whose entries are driven by a block of settings
in it. `front` holds the bytes before the settings and `back` those after them. They are kept as parts,
each with its place in the file, and what lies between two parts is zero.

The bytes are for the outer layer of the program alone: they are written to library files that a host can open. No
result depends on them.
-/

namespace CircuitBlocks.SampleCode

/-! ## Packed bytes -/

/-- Bytes from packed text. Two hexadecimal digits are a byte, and a letter from `g` on is a run of
zeros: `g` is one of them, `h` two, and so on. -/
def unpackChars : List Char → List UInt8
  | c :: d :: rest =>
    if 'g' ≤ c then zeros c ++ unpackChars (d :: rest)
    else UInt8.ofNat (16 * value c + value d) :: unpackChars rest
  | [c] => zeros c
  | [] => []
where
  zeros (c : Char) : List UInt8 := List.replicate (c.toNat + 1 - 'g'.toNat) 0
  value (c : Char) : Nat := (Hex.digit? c).getD 0

example : unpackChars "7f45i01g".toList = [0x7f, 0x45, 0, 0, 0, 1, 0] := by decide

/-- A run of the file. -/
structure Part where
  /-- Its place in the file. -/
  start : Nat
  /-- Its bytes, packed. -/
  lines : List String

/-- The bytes of a part. -/
def Part.bytes (p : Part) : List UInt8 := unpackChars (p.lines.flatMap (·.toList))

/-- The bytes of a file from `start` on that parts fill. -/
def fill (start : Nat) (parts : List Part) : List UInt8 :=
  parts.foldl (fun done p =>
    done ++ List.replicate (p.start - (start + done.length)) 0 ++ p.bytes) []

/-! ## The parts -/

/-- The header of the file and its segments. -/
def headers : Part where
  start := 0x0000
  lines := [
    "7f454c46020101o03g3eg01q40mc836p40g38g08g40g1bg1ag01i04zm4805l4805m10l01i05j10m10m10ld103ld1",
    "03m10l01i04j20m20m20l1801l1801m10l01i06ie02dle03dle03dl0803l1003m10l02i06if82dlf83dlf83dlc0",
    "01lc001l08m50e5746404i0820l0820l0820l44m44m04m51e5746406zzi10m52e5746404ie02dle03dle03dl2002",
    "l2002l01"]

/-- The symbols that the library exports and needs, and where they are used. -/
def symbols : Part where
  start := 0x0200
  lines := [
    "02i07i01i06k08g10g30k07i34d9870b135ddb47zj59i12y10i20y5ei12y01i20y2ci20y46i22y55i11g15g4040l",
    "78m65i11g15gc040l28n5f5f676d6f6e5f73746172745f5fg5f49544d5f64657265676973746572544d436c6f6e",
    "655461626c65g5f49544d5f7265676973746572544d436c6f6e655461626c65g5f5f6378615f66696e616c697a65",
    "g434647g66726565g63616c6c6f63g434f4445424c4f434b5f50524f434544555245g6c6962632e736f2e36g474c",
    "4942435f322e322e35j02g01g02g01g01g02g01g01m01g01g79i10m751a6909h02g83me03dl08m1011le83dl08m",
    "ae13lf03dl08md010l2040l08m2040lc840l08m8213ld040l08m7413ld840l08m1911le040l08m2d11lb83fl06i",
    "02qc03fl06i07qc83fl06i04qd03fl06i08qd83fl06i05qe03fl06i06r40l07i01q0840l07i03"]

/-- The code of the entries. -/
def code : Part where
  start := 0x1000
  lines := [
    "4883ec08488b05bd2fh4885c07402ffd04883c408c3off35ca2fhff25cc2fh0f1f40gff25ca2fh68je9e0ffffff",
    "ff25c22fh6801ie9d0ffffffff258a2fh6690n488d3d8130h488d057a30h4839f87415488b053e2fh4885c07409",
    "ffe00f1f80jc30f1f80j488d3d5130h488d354a30h4829fe4889f048c1ee3f48c1f8034801c648d1fe7414488b05",
    "1d2fh4885c07408ffe0660f1f44hc30f1f80jf30f1efa803d0d30i752b5548833dfa2ei4889e5740c488b3d2e2fh",
    "e859ffffffe864ffffffc605e52fh015dc30f1fgc30f1f80jf30f1efae977ffffff488b05a02ehf20f104038f20f",
    "11078b4020c34989f2660f28e0488b7424084885c9747e4889d04c8d1ccabaj4803104883c0084c39d875f44885",
    "f674184c89c84d8d0cf1bej4803304883c0084939c175f4f20f1005850ehf20f5807f20f1107488b05362eh8b40",
    "2885c07530b8j660fefdb4885d27575baj4885f6747c4c8b0d102eh4989ca4183e201e9b9i4889caeb95488b05f8",
    "2dh8b402889c0660fefd2f2480f2ad0660f2fc272b5488b05dd2dh8b4024c34989c149d1e94989c34183e3014d09",
    "d9660fefc0f2490f2ac1f20f58c0f2410f5944c2f8f20f58d84839d0748b4883c00178cd660fefc0f2480f2ac0eb",
    "dfb8jc34889d048d1e84989d34183e3014c09d8660fefd2f2480f2ad0f20f58d2e996i4889c848d1e84c09d0660f",
    "efd2f2480f2ad0f20f58d2e996i4883c2014839f20f84f9i418b411c89c04839c20f83e4i488b05352dhf2440f10",
    "4840f20f104048f20f107050f20f106858f20f105060f2440f104068f20f107870f20f59c3f2410f58c1f20f59f4",
    "f20f58c6f20f59e9f20f58c5f20f5917f20f58c24885d20f8851ffffff660fefd2f2480f2ad2f2410f59d0f20f58",
    "c24885c90f8858ffffff660fefd2f2480f2ad1f20f59d7f20f58c2f2410f1104d0488b05ad2ch8b402c85c00f84",
    "4affffff488b059b2ch8b402c89c0660fefc0f2480f2ac0f20f1017660f2fd00f8227ffffff488b05782ch488b40",
    "304839d00f8513ffffff660fefc0f20f5ec0f2410f1104d0e9gffffffb8jc3b8jc34883ec08e8b3fcffff4883c4",
    "08c3488b05372ch8b5018b8j85d275184883ec08be08ibf01ie898fcffff4883c408c3c3488b150b2ch8b4a1048",
    "8b05112ch89088b5214895004c34883ec084883c408c3"]

/-- The constants of the code, and how its frames are unwound. -/
def constants : Part where
  start := 0x2000
  lines := [
    "lf03f011b033b44i07i18f0ffff60i48f0ffff88i11f1ffffa0i25f1ffffb4i6cf3ffffc8i7af3ffffe0ia6f3ff",
    "fff8m14m017a52g017810011b0c07089001h24i1cib0efffff30j0e10460e184a0f0b770880g3f1a3b2a332422j",
    "14i44ib8efffff08q10i5ci69f0ffff14m10i70i69f0ffff4702l14i84i9cf2ffff0ej440e10490e08g14i9ci92",
    "f2ffff2cj570e10530e08g10ib4ia6f2ffff1a"]

/-- What the platform's loader fills in, up to the settings. -/
def linkage : Part where
  start := 0x2de0
  lines := [
    "1011lae13ld010l01m79m0cn10l0dmc813l19me03dl1bm10m1amf03dl1cm08mf5feff6fk02l05n03l06m2802l0am",
    "8fm0bm18m03me83fl02m30m14m07m17m1805l07mc803l08m5001l09m18mfeffff6fja803lffffff6fj01mf0ffff",
    "6fj9003lf9ffff6fj08zzzzzzuf83dzh3610l4610zh2040zp"]

/-- The procedure table, after the settings. -/
def table : Part where
  start := 0x30b8
  lines := [
    "v8213l7413l1911l2d11l4743433a202844656269616e2031322e322e302d31342b64656231327531292031322e",
    "322e30"]

/-- The names that the code was built from. -/
def names : Part where
  start := 0x3128
  lines := [
    "01i04gf1ffv0ci02g0bg6010t0ei02g0bg9010t21i02g0bgd010t37i01g16ge840l01m43i01g11gf03dt6ai02g0b",
    "g1011t76i01g10ge03dt95i04gf1ffv9ci02g0bg1911l14ma3i02g0bg2d11l4702ladi02g0bg7413l0emb7i02g0b",
    "g8213l2cmc0i02g0bgae13l1am01i04gf1ffvc6i01g0fg1421x04gf1ffvd4i02g0cgc813tdai01g15g2040te7i01",
    "g12gf83dtf0k0eg0820t0301h01g15ge840t0f01h01g14ge83ft9di02g08h10t2501h12y3601h20y5201h11g15g",
    "4040l78m5601h12y6901h20y7801h11g15gc040l28m8c01h20ya601h22z63727473747566662e63g646572656769",
    "737465725f746d5f636c6f6e6573g5f5f646f5f676c6f62616c5f64746f72735f617578g636f6d706c657465642e",
    "30g5f5f646f5f676c6f62616c5f64746f72735f6175785f66696e695f61727261795f656e747279g6672616d655f",
    "64756d6d79g5f5f6672616d655f64756d6d795f696e69745f61727261795f656e747279g70726f632e63g705f69",
    "6e6974g705f636f6d70757465g705f64657374726f79g705f637265617465g7365747570g5f5f4652414d455f45",
    "4e445f5fg5f66696e69g5f5f64736f5f68616e646c65g5f44594e414d4943g5f5f474e555f45485f4652414d455f",
    "484452g5f5f544d435f454e445f5fg5f474c4f42414c5f4f46465345545f5441424c455fg6672656540474c4942",
    "435f322e322e35g5f49544d5f64657265676973746572544d436c6f6e655461626c65g434647g63616c6c6f6340",
    "474c4942435f322e322e35g5f5f676d6f6e5f73746172745f5fg434f4445424c4f434b5f50524f434544555245g",
    "5f49544d5f7265676973746572544d436c6f6e655461626c65g5f5f6378615f66696e616c697a6540474c494243",
    "5f322e322e35h2e73796d746162g2e737472746162g2e7368737472746162g2e676e752e68617368g2e64796e73",
    "796dg2e64796e737472g2e676e752e76657273696f6eg2e676e752e76657273696f6e5f72g2e72656c612e64796e",
    "g2e72656c612e706c74g2e696e6974g2e706c742e676f74g2e74657874g2e66696e69g2e726f64617461g2e6568",
    "5f6672616d655f686472g2e65685f6672616d65g2e696e69745f6172726179g2e66696e695f6172726179g2e6479",
    "6e616d6963g2e676f742e706c74g2e64617461g2e627373g2e636f6d6d656e74"]

/-- The list of the sections. -/
def sections : Part where
  start := 0x36c8
  lines := [
    "zzzj1bif6ffff6f02n02m02l28m02m08u25i0bi02m2802l2802ld8m03i01i08m18m2di03i02n03m03l8fu01u35i",
    "ffffff6f02m9003l9003l12m02m02m02m42ifeffff6f02ma803la803l20m03i01i08u51i04i02mc803lc803l5001",
    "l02m08m18m5bi04i42m1805l1805l30m02i14i08m18m65i01i06n10m10l17u04u60i01i06m2010l2010l30u10m10",
    "m6bi01i06m5010l5010l08u08m08m74i01i06m6010l6010l6803t10u7ai01i06mc813lc813l09u04u80i01i12n20",
    "m20l08u08m08m88i01i02m0820l0820l44u04u96i01i02m5020l5020lc8u08ua0i0ei03me03dle02dl10u08m08m",
    "aci0fi03mf03dlf02dl08u08m08mb8i06i03mf83dlf82dlc001l03m08m10m6fi01i03mb83flb82fl30u08m08mc1i",
    "01i03me83fle82fl28u08m08mcai01i03m2040l2030lc8u20ud0i08i03me840le830l08u01ud5i01i30ue830l27u",
    "01m01m01i02y1031l1803l19i19i08m18m09i03y2834lc101t01u11i03ye935ldeu01u"]

/-! ## The file around its settings -/

/-- Where the settings are. -/
def settingsStart : Nat := 0x3040

/-- How many bytes the settings have. -/
def settingsSize : Nat := 0x78

/-- The file up to the settings. -/
def front : List UInt8 := fill 0 [headers, symbols, code, constants, linkage]

/-- The file from the settings on. -/
def back : List UInt8 := fill (settingsStart + settingsSize) [table, names, sections]

end CircuitBlocks.SampleCode
