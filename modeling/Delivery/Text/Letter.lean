/-!
Letters and numbers of all scripts: the Unicode categories `L` and `N` with the letters in circles and
squares. The marks between the letters of a script are counted with them.
-/

namespace Delivery.Text

def letterRanges : List (Nat × Nat) :=
  [(0x30, 0x39), (0x41, 0x5a), (0x61, 0x7a), (0xaa, 0xaa), (0xb2, 0xb3), (0xb5, 0xb5),
    (0xb9, 0xba), (0xbc, 0xbe), (0xc0, 0xd6), (0xd8, 0xf6), (0xf8, 0x2c1), (0x2c6, 0x2d1),
    (0x2e0, 0x2e4), (0x2ec, 0x2ec), (0x2ee, 0x2ee), (0x370, 0x374), (0x376, 0x37d),
    (0x37f, 0x37f), (0x386, 0x386), (0x388, 0x3f5), (0x3f7, 0x481), (0x48a, 0x559),
    (0x560, 0x588), (0x5d0, 0x5f2), (0x620, 0x669), (0x66e, 0x6d3), (0x6d5, 0x6d5),
    (0x6e5, 0x6e6), (0x6ee, 0x6fc), (0x6ff, 0x6ff), (0x710, 0x7f5), (0x7fa, 0x7fa),
    (0x800, 0x828), (0x840, 0x858), (0x860, 0x887), (0x889, 0x88e), (0x8a0, 0x8c9),
    (0x904, 0x961), (0x966, 0x96f), (0x971, 0x9f1), (0x9f4, 0x9f9), (0x9fc, 0x9fc),
    (0xa05, 0xa74), (0xa85, 0xaef), (0xaf9, 0xb6f), (0xb71, 0xbf2), (0xc05, 0xc6f),
    (0xc78, 0xc7e), (0xc80, 0xc80), (0xc85, 0xd4e), (0xd54, 0xd78), (0xd7a, 0xdef),
    (0xe01, 0xe33), (0xe40, 0xe46), (0xe50, 0xe59), (0xe81, 0xf00), (0xf20, 0xf33),
    (0xf40, 0xf6c), (0xf88, 0xf8c), (0x1000, 0x1049), (0x1050, 0x1099), (0x10a0, 0x10fa),
    (0x10fc, 0x135a), (0x1369, 0x138f), (0x13a0, 0x13fd), (0x1401, 0x166c), (0x166f, 0x167f),
    (0x1681, 0x169a), (0x16a0, 0x16ea), (0x16ee, 0x1731), (0x1740, 0x17b3), (0x17d7, 0x17d7),
    (0x17dc, 0x17f9), (0x1810, 0x191e), (0x1946, 0x19da), (0x1a00, 0x1a16), (0x1a20, 0x1a99),
    (0x1aa7, 0x1aa7), (0x1b05, 0x1b59), (0x1b83, 0x1be5), (0x1c00, 0x1c23), (0x1c40, 0x1c7d),
    (0x1c80, 0x1cbf), (0x1ce9, 0x1fbc), (0x1fbe, 0x1fbe), (0x1fc2, 0x1fcc), (0x1fd0, 0x1fdb),
    (0x1fe0, 0x1fec), (0x1ff2, 0x1ffc), (0x2070, 0x2079), (0x207f, 0x2089), (0x2090, 0x209c),
    (0x2102, 0x2102), (0x2107, 0x2107), (0x210a, 0x2113), (0x2115, 0x2115), (0x2119, 0x211d),
    (0x2124, 0x2124), (0x2126, 0x2126), (0x2128, 0x2128), (0x212a, 0x212d), (0x212f, 0x2139),
    (0x213c, 0x213f), (0x2145, 0x2149), (0x214e, 0x214e), (0x2150, 0x2189), (0x2460, 0x249b),
    (0x24b6, 0x24ff), (0x2776, 0x2793), (0x2c00, 0x2ce4), (0x2ceb, 0x2cf3), (0x2cfd, 0x2cfd),
    (0x2d00, 0x2d6f), (0x2d80, 0x2dde), (0x2e2f, 0x2e2f), (0x3005, 0x3007), (0x3021, 0x3029),
    (0x3031, 0x3035), (0x3038, 0x303c), (0x3041, 0x3096), (0x309d, 0x309f), (0x30a1, 0x30fa),
    (0x30fc, 0x318e), (0x3192, 0x3195), (0x31a0, 0x31bf), (0x31f0, 0x31ff), (0x3220, 0x3229),
    (0x3248, 0x324f), (0x3251, 0x325f), (0x3280, 0x3289), (0x32b1, 0x32bf), (0x3400, 0x4dbf),
    (0x4e00, 0xa48c), (0xa4d0, 0xa4fd), (0xa500, 0xa60c), (0xa610, 0xa66e), (0xa67f, 0xa6ef),
    (0xa717, 0xa71f), (0xa722, 0xa788), (0xa78b, 0xa822), (0xa830, 0xa835), (0xa840, 0xa873),
    (0xa882, 0xa8b3), (0xa8d0, 0xa8f7), (0xa8fb, 0xa8fb), (0xa8fd, 0xa925), (0xa930, 0xa946),
    (0xa960, 0xa9b2), (0xa9cf, 0xa9d9), (0xa9e0, 0xaa59), (0xaa60, 0xaa76), (0xaa7a, 0xaadd),
    (0xaae0, 0xaaea), (0xaaf2, 0xab5a), (0xab5c, 0xab69), (0xab70, 0xabe2), (0xabf0, 0xd7fb),
    (0xf900, 0xfb28), (0xfb2a, 0xfbb1), (0xfbd3, 0xfd3d), (0xfd50, 0xfdc7), (0xfdf0, 0xfdfb),
    (0xfe70, 0xfefc), (0xff10, 0xff19), (0xff21, 0xff3a), (0xff41, 0xff5a), (0xff66, 0xffdc),
    (0x10000, 0x100fa), (0x10107, 0x10133), (0x10140, 0x10178), (0x1018a, 0x1018b),
    (0x10280, 0x1039d), (0x103a0, 0x103cf), (0x103d1, 0x10563), (0x10570, 0x10855),
    (0x10858, 0x10876), (0x10879, 0x1091b), (0x10920, 0x10939), (0x10980, 0x10a48),
    (0x10a60, 0x10a7e), (0x10a80, 0x10ac7), (0x10ac9, 0x10aef), (0x10b00, 0x10b35),
    (0x10b40, 0x10b91), (0x10ba9, 0x10ea9), (0x10eb0, 0x10f54), (0x10f70, 0x10f81),
    (0x10fb0, 0x11037), (0x11052, 0x110af), (0x110d0, 0x1113f), (0x11144, 0x11172),
    (0x11176, 0x111c4), (0x111d0, 0x111da), (0x111dc, 0x111dc), (0x111e1, 0x1122b),
    (0x11280, 0x112a8), (0x112b0, 0x1144a), (0x11450, 0x11459), (0x1145f, 0x114c5),
    (0x114c7, 0x115ae), (0x115d8, 0x1162f), (0x11644, 0x11659), (0x11680, 0x116b8),
    (0x116c0, 0x1173b), (0x11740, 0x1182b), (0x118a0, 0x11941), (0x11950, 0x119e1),
    (0x119e3, 0x11a3a), (0x11a50, 0x11a89), (0x11a9d, 0x11a9d), (0x11ab0, 0x11c40),
    (0x11c50, 0x11c6c), (0x11c72, 0x11ef2), (0x11fb0, 0x11fd4), (0x12000, 0x1246e),
    (0x12480, 0x12ff0), (0x13000, 0x1342e), (0x14400, 0x14646), (0x16800, 0x16a69),
    (0x16a70, 0x16aed), (0x16b00, 0x16b2f), (0x16b40, 0x16b43), (0x16b50, 0x16e96),
    (0x16f00, 0x16fe1), (0x16fe3, 0x18d08), (0x1aff0, 0x1bc99), (0x1d2e0, 0x1d2f3),
    (0x1d360, 0x1d6c0), (0x1d6c2, 0x1d6da), (0x1d6dc, 0x1d6fa), (0x1d6fc, 0x1d714),
    (0x1d716, 0x1d734), (0x1d736, 0x1d74e), (0x1d750, 0x1d76e), (0x1d770, 0x1d788),
    (0x1d78a, 0x1d7a8), (0x1d7aa, 0x1d7c2), (0x1d7c4, 0x1d7ff), (0x1df00, 0x1e14e),
    (0x1e290, 0x1e2f9), (0x1e7e0, 0x1e959), (0x1ec71, 0x1ecab), (0x1ecad, 0x1ecaf),
    (0x1ecb1, 0x1ed2d), (0x1ed2f, 0x1eebb), (0x1f100, 0x1f10c), (0x1f130, 0x1f149),
    (0x1f150, 0x1f169), (0x1f170, 0x1f189), (0x1fbf0, 0x2ebe0), (0x2f800, 0x3134a)]

def isLetterOrNumber (c : Char) : Bool :=
  letterRanges.any fun range => range.1 ≤ c.toNat && c.toNat ≤ range.2

end Delivery.Text
