/-!
Tables of the ASCII part of the Unicode compatibility decomposition.

A row `(first, last, step, image)` sends `first + k`, up to `last`, to the ASCII
code point `image + k * step`. A code point whose decomposition holds several
ASCII characters stands in a table of its own. A code point in neither table
has no ASCII character in its decomposition.

* `singleRows`: decompositions with one ASCII character.
* `multipleRows`: decompositions with several.
-/

namespace Scaffold.Text.AsciiForm

/-- Code points with one ASCII character in their decomposition. -/
def singleRows : List (Nat × Nat × Nat × Nat) :=
  [(0xa0, 0xa0, 1, 0x20), (0xa8, 0xa8, 1, 0x20), (0xaa, 0xaa, 1, 0x61),
   (0xaf, 0xaf, 1, 0x20), (0xb2, 0xb3, 1, 0x32), (0xb4, 0xb4, 1, 0x20),
   (0xb8, 0xb8, 1, 0x20), (0xb9, 0xb9, 1, 0x31), (0xba, 0xba, 1, 0x6f),
   (0xc0, 0xc5, 0, 0x41), (0xc7, 0xc7, 1, 0x43), (0xc8, 0xcb, 0, 0x45),
   (0xcc, 0xcf, 0, 0x49), (0xd1, 0xd2, 1, 0x4e), (0xd3, 0xd6, 0, 0x4f),
   (0xd9, 0xdc, 0, 0x55), (0xdd, 0xdd, 1, 0x59), (0xe0, 0xe5, 0, 0x61),
   (0xe7, 0xe7, 1, 0x63), (0xe8, 0xeb, 0, 0x65), (0xec, 0xef, 0, 0x69),
   (0xf1, 0xf2, 1, 0x6e), (0xf3, 0xf6, 0, 0x6f), (0xf9, 0xfc, 0, 0x75),
   (0xfd, 0xfd, 1, 0x79), (0xff, 0xff, 1, 0x79), (0x100, 0x100, 1, 0x41),
   (0x101, 0x101, 1, 0x61), (0x102, 0x102, 1, 0x41), (0x103, 0x103, 1, 0x61),
   (0x104, 0x104, 1, 0x41), (0x105, 0x105, 1, 0x61), (0x106, 0x106, 1, 0x43),
   (0x107, 0x107, 1, 0x63), (0x108, 0x108, 1, 0x43), (0x109, 0x109, 1, 0x63),
   (0x10a, 0x10a, 1, 0x43), (0x10b, 0x10b, 1, 0x63), (0x10c, 0x10c, 1, 0x43),
   (0x10d, 0x10d, 1, 0x63), (0x10e, 0x10e, 1, 0x44), (0x10f, 0x10f, 1, 0x64),
   (0x112, 0x112, 1, 0x45), (0x113, 0x113, 1, 0x65), (0x114, 0x114, 1, 0x45),
   (0x115, 0x115, 1, 0x65), (0x116, 0x116, 1, 0x45), (0x117, 0x117, 1, 0x65),
   (0x118, 0x118, 1, 0x45), (0x119, 0x119, 1, 0x65), (0x11a, 0x11a, 1, 0x45),
   (0x11b, 0x11b, 1, 0x65), (0x11c, 0x11c, 1, 0x47), (0x11d, 0x11d, 1, 0x67),
   (0x11e, 0x11e, 1, 0x47), (0x11f, 0x11f, 1, 0x67), (0x120, 0x120, 1, 0x47),
   (0x121, 0x121, 1, 0x67), (0x122, 0x122, 1, 0x47), (0x123, 0x123, 1, 0x67),
   (0x124, 0x124, 1, 0x48), (0x125, 0x125, 1, 0x68), (0x128, 0x128, 1, 0x49),
   (0x129, 0x129, 1, 0x69), (0x12a, 0x12a, 1, 0x49), (0x12b, 0x12b, 1, 0x69),
   (0x12c, 0x12c, 1, 0x49), (0x12d, 0x12d, 1, 0x69), (0x12e, 0x12e, 1, 0x49),
   (0x12f, 0x12f, 1, 0x69), (0x130, 0x130, 1, 0x49), (0x134, 0x134, 1, 0x4a),
   (0x135, 0x135, 1, 0x6a), (0x136, 0x136, 1, 0x4b), (0x137, 0x137, 1, 0x6b),
   (0x139, 0x139, 1, 0x4c), (0x13a, 0x13a, 1, 0x6c), (0x13b, 0x13b, 1, 0x4c),
   (0x13c, 0x13c, 1, 0x6c), (0x13d, 0x13d, 1, 0x4c), (0x13e, 0x13e, 1, 0x6c),
   (0x13f, 0x13f, 1, 0x4c), (0x140, 0x140, 1, 0x6c), (0x143, 0x143, 1, 0x4e),
   (0x144, 0x144, 1, 0x6e), (0x145, 0x145, 1, 0x4e), (0x146, 0x146, 1, 0x6e),
   (0x147, 0x147, 1, 0x4e), (0x148, 0x149, 0, 0x6e), (0x14c, 0x14c, 1, 0x4f),
   (0x14d, 0x14d, 1, 0x6f), (0x14e, 0x14e, 1, 0x4f), (0x14f, 0x14f, 1, 0x6f),
   (0x150, 0x150, 1, 0x4f), (0x151, 0x151, 1, 0x6f), (0x154, 0x154, 1, 0x52),
   (0x155, 0x155, 1, 0x72), (0x156, 0x156, 1, 0x52), (0x157, 0x157, 1, 0x72),
   (0x158, 0x158, 1, 0x52), (0x159, 0x159, 1, 0x72), (0x15a, 0x15a, 1, 0x53),
   (0x15b, 0x15b, 1, 0x73), (0x15c, 0x15c, 1, 0x53), (0x15d, 0x15d, 1, 0x73),
   (0x15e, 0x15e, 1, 0x53), (0x15f, 0x15f, 1, 0x73), (0x160, 0x160, 1, 0x53),
   (0x161, 0x161, 1, 0x73), (0x162, 0x162, 1, 0x54), (0x163, 0x163, 1, 0x74),
   (0x164, 0x164, 1, 0x54), (0x165, 0x165, 1, 0x74), (0x168, 0x168, 1, 0x55),
   (0x169, 0x169, 1, 0x75), (0x16a, 0x16a, 1, 0x55), (0x16b, 0x16b, 1, 0x75),
   (0x16c, 0x16c, 1, 0x55), (0x16d, 0x16d, 1, 0x75), (0x16e, 0x16e, 1, 0x55),
   (0x16f, 0x16f, 1, 0x75), (0x170, 0x170, 1, 0x55), (0x171, 0x171, 1, 0x75),
   (0x172, 0x172, 1, 0x55), (0x173, 0x173, 1, 0x75), (0x174, 0x174, 1, 0x57),
   (0x175, 0x175, 1, 0x77), (0x176, 0x176, 1, 0x59), (0x177, 0x177, 1, 0x79),
   (0x178, 0x179, 1, 0x59), (0x17a, 0x17a, 1, 0x7a), (0x17b, 0x17b, 1, 0x5a),
   (0x17c, 0x17c, 1, 0x7a), (0x17d, 0x17d, 1, 0x5a), (0x17e, 0x17e, 1, 0x7a),
   (0x17f, 0x17f, 1, 0x73), (0x1a0, 0x1a0, 1, 0x4f), (0x1a1, 0x1a1, 1, 0x6f),
   (0x1af, 0x1af, 1, 0x55), (0x1b0, 0x1b0, 1, 0x75), (0x1cd, 0x1cd, 1, 0x41),
   (0x1ce, 0x1ce, 1, 0x61), (0x1cf, 0x1cf, 1, 0x49), (0x1d0, 0x1d0, 1, 0x69),
   (0x1d1, 0x1d1, 1, 0x4f), (0x1d2, 0x1d2, 1, 0x6f), (0x1d3, 0x1d3, 1, 0x55),
   (0x1d4, 0x1d4, 1, 0x75), (0x1d5, 0x1d5, 1, 0x55), (0x1d6, 0x1d6, 1, 0x75),
   (0x1d7, 0x1d7, 1, 0x55), (0x1d8, 0x1d8, 1, 0x75), (0x1d9, 0x1d9, 1, 0x55),
   (0x1da, 0x1da, 1, 0x75), (0x1db, 0x1db, 1, 0x55), (0x1dc, 0x1dc, 1, 0x75),
   (0x1de, 0x1de, 1, 0x41), (0x1df, 0x1df, 1, 0x61), (0x1e0, 0x1e0, 1, 0x41),
   (0x1e1, 0x1e1, 1, 0x61), (0x1e6, 0x1e6, 1, 0x47), (0x1e7, 0x1e7, 1, 0x67),
   (0x1e8, 0x1e8, 1, 0x4b), (0x1e9, 0x1e9, 1, 0x6b), (0x1ea, 0x1ea, 1, 0x4f),
   (0x1eb, 0x1eb, 1, 0x6f), (0x1ec, 0x1ec, 1, 0x4f), (0x1ed, 0x1ed, 1, 0x6f),
   (0x1f0, 0x1f0, 1, 0x6a), (0x1f4, 0x1f4, 1, 0x47), (0x1f5, 0x1f5, 1, 0x67),
   (0x1f8, 0x1f8, 1, 0x4e), (0x1f9, 0x1f9, 1, 0x6e), (0x1fa, 0x1fa, 1, 0x41),
   (0x1fb, 0x1fb, 1, 0x61), (0x200, 0x200, 1, 0x41), (0x201, 0x201, 1, 0x61),
   (0x202, 0x202, 1, 0x41), (0x203, 0x203, 1, 0x61), (0x204, 0x204, 1, 0x45),
   (0x205, 0x205, 1, 0x65), (0x206, 0x206, 1, 0x45), (0x207, 0x207, 1, 0x65),
   (0x208, 0x208, 1, 0x49), (0x209, 0x209, 1, 0x69), (0x20a, 0x20a, 1, 0x49),
   (0x20b, 0x20b, 1, 0x69), (0x20c, 0x20c, 1, 0x4f), (0x20d, 0x20d, 1, 0x6f),
   (0x20e, 0x20e, 1, 0x4f), (0x20f, 0x20f, 1, 0x6f), (0x210, 0x210, 1, 0x52),
   (0x211, 0x211, 1, 0x72), (0x212, 0x212, 1, 0x52), (0x213, 0x213, 1, 0x72),
   (0x214, 0x214, 1, 0x55), (0x215, 0x215, 1, 0x75), (0x216, 0x216, 1, 0x55),
   (0x217, 0x217, 1, 0x75), (0x218, 0x218, 1, 0x53), (0x219, 0x219, 1, 0x73),
   (0x21a, 0x21a, 1, 0x54), (0x21b, 0x21b, 1, 0x74), (0x21e, 0x21e, 1, 0x48),
   (0x21f, 0x21f, 1, 0x68), (0x226, 0x226, 1, 0x41), (0x227, 0x227, 1, 0x61),
   (0x228, 0x228, 1, 0x45), (0x229, 0x229, 1, 0x65), (0x22a, 0x22a, 1, 0x4f),
   (0x22b, 0x22b, 1, 0x6f), (0x22c, 0x22c, 1, 0x4f), (0x22d, 0x22d, 1, 0x6f),
   (0x22e, 0x22e, 1, 0x4f), (0x22f, 0x22f, 1, 0x6f), (0x230, 0x230, 1, 0x4f),
   (0x231, 0x231, 1, 0x6f), (0x232, 0x232, 1, 0x59), (0x233, 0x233, 1, 0x79),
   (0x2b0, 0x2b0, 1, 0x68), (0x2b2, 0x2b2, 1, 0x6a), (0x2b3, 0x2b3, 1, 0x72),
   (0x2b7, 0x2b7, 1, 0x77), (0x2b8, 0x2b8, 1, 0x79), (0x2d8, 0x2dd, 0, 0x20),
   (0x2e1, 0x2e1, 1, 0x6c), (0x2e2, 0x2e2, 1, 0x73), (0x2e3, 0x2e3, 1, 0x78),
   (0x37a, 0x37a, 1, 0x20), (0x37e, 0x37e, 1, 0x3b), (0x384, 0x385, 0, 0x20),
   (0x1d2c, 0x1d2c, 1, 0x41), (0x1d2e, 0x1d2e, 1, 0x42),
   (0x1d30, 0x1d31, 1, 0x44), (0x1d33, 0x1d3a, 1, 0x47),
   (0x1d3c, 0x1d3c, 1, 0x4f), (0x1d3e, 0x1d3e, 1, 0x50),
   (0x1d3f, 0x1d3f, 1, 0x52), (0x1d40, 0x1d41, 1, 0x54),
   (0x1d42, 0x1d42, 1, 0x57), (0x1d43, 0x1d43, 1, 0x61),
   (0x1d47, 0x1d47, 1, 0x62), (0x1d48, 0x1d49, 1, 0x64),
   (0x1d4d, 0x1d4d, 1, 0x67), (0x1d4f, 0x1d4f, 1, 0x6b),
   (0x1d50, 0x1d50, 1, 0x6d), (0x1d52, 0x1d52, 1, 0x6f),
   (0x1d56, 0x1d56, 1, 0x70), (0x1d57, 0x1d58, 1, 0x74),
   (0x1d5b, 0x1d5b, 1, 0x76), (0x1d62, 0x1d62, 1, 0x69),
   (0x1d63, 0x1d63, 1, 0x72), (0x1d64, 0x1d65, 1, 0x75),
   (0x1d9c, 0x1d9c, 1, 0x63), (0x1da0, 0x1da0, 1, 0x66),
   (0x1dbb, 0x1dbb, 1, 0x7a), (0x1e00, 0x1e00, 1, 0x41),
   (0x1e01, 0x1e01, 1, 0x61), (0x1e02, 0x1e02, 1, 0x42),
   (0x1e03, 0x1e03, 1, 0x62), (0x1e04, 0x1e04, 1, 0x42),
   (0x1e05, 0x1e05, 1, 0x62), (0x1e06, 0x1e06, 1, 0x42),
   (0x1e07, 0x1e07, 1, 0x62), (0x1e08, 0x1e08, 1, 0x43),
   (0x1e09, 0x1e09, 1, 0x63), (0x1e0a, 0x1e0a, 1, 0x44),
   (0x1e0b, 0x1e0b, 1, 0x64), (0x1e0c, 0x1e0c, 1, 0x44),
   (0x1e0d, 0x1e0d, 1, 0x64), (0x1e0e, 0x1e0e, 1, 0x44),
   (0x1e0f, 0x1e0f, 1, 0x64), (0x1e10, 0x1e10, 1, 0x44),
   (0x1e11, 0x1e11, 1, 0x64), (0x1e12, 0x1e12, 1, 0x44),
   (0x1e13, 0x1e13, 1, 0x64), (0x1e14, 0x1e14, 1, 0x45),
   (0x1e15, 0x1e15, 1, 0x65), (0x1e16, 0x1e16, 1, 0x45),
   (0x1e17, 0x1e17, 1, 0x65), (0x1e18, 0x1e18, 1, 0x45),
   (0x1e19, 0x1e19, 1, 0x65), (0x1e1a, 0x1e1a, 1, 0x45),
   (0x1e1b, 0x1e1b, 1, 0x65), (0x1e1c, 0x1e1c, 1, 0x45),
   (0x1e1d, 0x1e1d, 1, 0x65), (0x1e1e, 0x1e1e, 1, 0x46),
   (0x1e1f, 0x1e1f, 1, 0x66), (0x1e20, 0x1e20, 1, 0x47),
   (0x1e21, 0x1e21, 1, 0x67), (0x1e22, 0x1e22, 1, 0x48),
   (0x1e23, 0x1e23, 1, 0x68), (0x1e24, 0x1e24, 1, 0x48),
   (0x1e25, 0x1e25, 1, 0x68), (0x1e26, 0x1e26, 1, 0x48),
   (0x1e27, 0x1e27, 1, 0x68), (0x1e28, 0x1e28, 1, 0x48),
   (0x1e29, 0x1e29, 1, 0x68), (0x1e2a, 0x1e2a, 1, 0x48),
   (0x1e2b, 0x1e2b, 1, 0x68), (0x1e2c, 0x1e2c, 1, 0x49),
   (0x1e2d, 0x1e2d, 1, 0x69), (0x1e2e, 0x1e2e, 1, 0x49),
   (0x1e2f, 0x1e2f, 1, 0x69), (0x1e30, 0x1e30, 1, 0x4b),
   (0x1e31, 0x1e31, 1, 0x6b), (0x1e32, 0x1e32, 1, 0x4b),
   (0x1e33, 0x1e33, 1, 0x6b), (0x1e34, 0x1e34, 1, 0x4b),
   (0x1e35, 0x1e35, 1, 0x6b), (0x1e36, 0x1e36, 1, 0x4c),
   (0x1e37, 0x1e37, 1, 0x6c), (0x1e38, 0x1e38, 1, 0x4c),
   (0x1e39, 0x1e39, 1, 0x6c), (0x1e3a, 0x1e3a, 1, 0x4c),
   (0x1e3b, 0x1e3b, 1, 0x6c), (0x1e3c, 0x1e3c, 1, 0x4c),
   (0x1e3d, 0x1e3d, 1, 0x6c), (0x1e3e, 0x1e3e, 1, 0x4d),
   (0x1e3f, 0x1e3f, 1, 0x6d), (0x1e40, 0x1e40, 1, 0x4d),
   (0x1e41, 0x1e41, 1, 0x6d), (0x1e42, 0x1e42, 1, 0x4d),
   (0x1e43, 0x1e43, 1, 0x6d), (0x1e44, 0x1e44, 1, 0x4e),
   (0x1e45, 0x1e45, 1, 0x6e), (0x1e46, 0x1e46, 1, 0x4e),
   (0x1e47, 0x1e47, 1, 0x6e), (0x1e48, 0x1e48, 1, 0x4e),
   (0x1e49, 0x1e49, 1, 0x6e), (0x1e4a, 0x1e4a, 1, 0x4e),
   (0x1e4b, 0x1e4b, 1, 0x6e), (0x1e4c, 0x1e4c, 1, 0x4f),
   (0x1e4d, 0x1e4d, 1, 0x6f), (0x1e4e, 0x1e4e, 1, 0x4f),
   (0x1e4f, 0x1e4f, 1, 0x6f), (0x1e50, 0x1e50, 1, 0x4f),
   (0x1e51, 0x1e51, 1, 0x6f), (0x1e52, 0x1e52, 1, 0x4f),
   (0x1e53, 0x1e53, 1, 0x6f), (0x1e54, 0x1e54, 1, 0x50),
   (0x1e55, 0x1e55, 1, 0x70), (0x1e56, 0x1e56, 1, 0x50),
   (0x1e57, 0x1e57, 1, 0x70), (0x1e58, 0x1e58, 1, 0x52),
   (0x1e59, 0x1e59, 1, 0x72), (0x1e5a, 0x1e5a, 1, 0x52),
   (0x1e5b, 0x1e5b, 1, 0x72), (0x1e5c, 0x1e5c, 1, 0x52),
   (0x1e5d, 0x1e5d, 1, 0x72), (0x1e5e, 0x1e5e, 1, 0x52),
   (0x1e5f, 0x1e5f, 1, 0x72), (0x1e60, 0x1e60, 1, 0x53),
   (0x1e61, 0x1e61, 1, 0x73), (0x1e62, 0x1e62, 1, 0x53),
   (0x1e63, 0x1e63, 1, 0x73), (0x1e64, 0x1e64, 1, 0x53),
   (0x1e65, 0x1e65, 1, 0x73), (0x1e66, 0x1e66, 1, 0x53),
   (0x1e67, 0x1e67, 1, 0x73), (0x1e68, 0x1e68, 1, 0x53),
   (0x1e69, 0x1e69, 1, 0x73), (0x1e6a, 0x1e6a, 1, 0x54),
   (0x1e6b, 0x1e6b, 1, 0x74), (0x1e6c, 0x1e6c, 1, 0x54),
   (0x1e6d, 0x1e6d, 1, 0x74), (0x1e6e, 0x1e6e, 1, 0x54),
   (0x1e6f, 0x1e6f, 1, 0x74), (0x1e70, 0x1e70, 1, 0x54),
   (0x1e71, 0x1e71, 1, 0x74), (0x1e72, 0x1e72, 1, 0x55),
   (0x1e73, 0x1e73, 1, 0x75), (0x1e74, 0x1e74, 1, 0x55),
   (0x1e75, 0x1e75, 1, 0x75), (0x1e76, 0x1e76, 1, 0x55),
   (0x1e77, 0x1e77, 1, 0x75), (0x1e78, 0x1e78, 1, 0x55),
   (0x1e79, 0x1e79, 1, 0x75), (0x1e7a, 0x1e7a, 1, 0x55),
   (0x1e7b, 0x1e7b, 1, 0x75), (0x1e7c, 0x1e7c, 1, 0x56),
   (0x1e7d, 0x1e7d, 1, 0x76), (0x1e7e, 0x1e7e, 1, 0x56),
   (0x1e7f, 0x1e7f, 1, 0x76), (0x1e80, 0x1e80, 1, 0x57),
   (0x1e81, 0x1e81, 1, 0x77), (0x1e82, 0x1e82, 1, 0x57),
   (0x1e83, 0x1e83, 1, 0x77), (0x1e84, 0x1e84, 1, 0x57),
   (0x1e85, 0x1e85, 1, 0x77), (0x1e86, 0x1e86, 1, 0x57),
   (0x1e87, 0x1e87, 1, 0x77), (0x1e88, 0x1e88, 1, 0x57),
   (0x1e89, 0x1e89, 1, 0x77), (0x1e8a, 0x1e8a, 1, 0x58),
   (0x1e8b, 0x1e8b, 1, 0x78), (0x1e8c, 0x1e8c, 1, 0x58),
   (0x1e8d, 0x1e8d, 1, 0x78), (0x1e8e, 0x1e8e, 1, 0x59),
   (0x1e8f, 0x1e8f, 1, 0x79), (0x1e90, 0x1e90, 1, 0x5a),
   (0x1e91, 0x1e91, 1, 0x7a), (0x1e92, 0x1e92, 1, 0x5a),
   (0x1e93, 0x1e93, 1, 0x7a), (0x1e94, 0x1e94, 1, 0x5a),
   (0x1e95, 0x1e95, 1, 0x7a), (0x1e96, 0x1e96, 1, 0x68),
   (0x1e97, 0x1e97, 1, 0x74), (0x1e98, 0x1e98, 1, 0x77),
   (0x1e99, 0x1e99, 1, 0x79), (0x1e9a, 0x1e9a, 1, 0x61),
   (0x1e9b, 0x1e9b, 1, 0x73), (0x1ea0, 0x1ea0, 1, 0x41),
   (0x1ea1, 0x1ea1, 1, 0x61), (0x1ea2, 0x1ea2, 1, 0x41),
   (0x1ea3, 0x1ea3, 1, 0x61), (0x1ea4, 0x1ea4, 1, 0x41),
   (0x1ea5, 0x1ea5, 1, 0x61), (0x1ea6, 0x1ea6, 1, 0x41),
   (0x1ea7, 0x1ea7, 1, 0x61), (0x1ea8, 0x1ea8, 1, 0x41),
   (0x1ea9, 0x1ea9, 1, 0x61), (0x1eaa, 0x1eaa, 1, 0x41),
   (0x1eab, 0x1eab, 1, 0x61), (0x1eac, 0x1eac, 1, 0x41),
   (0x1ead, 0x1ead, 1, 0x61), (0x1eae, 0x1eae, 1, 0x41),
   (0x1eaf, 0x1eaf, 1, 0x61), (0x1eb0, 0x1eb0, 1, 0x41),
   (0x1eb1, 0x1eb1, 1, 0x61), (0x1eb2, 0x1eb2, 1, 0x41),
   (0x1eb3, 0x1eb3, 1, 0x61), (0x1eb4, 0x1eb4, 1, 0x41),
   (0x1eb5, 0x1eb5, 1, 0x61), (0x1eb6, 0x1eb6, 1, 0x41),
   (0x1eb7, 0x1eb7, 1, 0x61), (0x1eb8, 0x1eb8, 1, 0x45),
   (0x1eb9, 0x1eb9, 1, 0x65), (0x1eba, 0x1eba, 1, 0x45),
   (0x1ebb, 0x1ebb, 1, 0x65), (0x1ebc, 0x1ebc, 1, 0x45),
   (0x1ebd, 0x1ebd, 1, 0x65), (0x1ebe, 0x1ebe, 1, 0x45),
   (0x1ebf, 0x1ebf, 1, 0x65), (0x1ec0, 0x1ec0, 1, 0x45),
   (0x1ec1, 0x1ec1, 1, 0x65), (0x1ec2, 0x1ec2, 1, 0x45),
   (0x1ec3, 0x1ec3, 1, 0x65), (0x1ec4, 0x1ec4, 1, 0x45),
   (0x1ec5, 0x1ec5, 1, 0x65), (0x1ec6, 0x1ec6, 1, 0x45),
   (0x1ec7, 0x1ec7, 1, 0x65), (0x1ec8, 0x1ec8, 1, 0x49),
   (0x1ec9, 0x1ec9, 1, 0x69), (0x1eca, 0x1eca, 1, 0x49),
   (0x1ecb, 0x1ecb, 1, 0x69), (0x1ecc, 0x1ecc, 1, 0x4f),
   (0x1ecd, 0x1ecd, 1, 0x6f), (0x1ece, 0x1ece, 1, 0x4f),
   (0x1ecf, 0x1ecf, 1, 0x6f), (0x1ed0, 0x1ed0, 1, 0x4f),
   (0x1ed1, 0x1ed1, 1, 0x6f), (0x1ed2, 0x1ed2, 1, 0x4f),
   (0x1ed3, 0x1ed3, 1, 0x6f), (0x1ed4, 0x1ed4, 1, 0x4f),
   (0x1ed5, 0x1ed5, 1, 0x6f), (0x1ed6, 0x1ed6, 1, 0x4f),
   (0x1ed7, 0x1ed7, 1, 0x6f), (0x1ed8, 0x1ed8, 1, 0x4f),
   (0x1ed9, 0x1ed9, 1, 0x6f), (0x1eda, 0x1eda, 1, 0x4f),
   (0x1edb, 0x1edb, 1, 0x6f), (0x1edc, 0x1edc, 1, 0x4f),
   (0x1edd, 0x1edd, 1, 0x6f), (0x1ede, 0x1ede, 1, 0x4f),
   (0x1edf, 0x1edf, 1, 0x6f), (0x1ee0, 0x1ee0, 1, 0x4f),
   (0x1ee1, 0x1ee1, 1, 0x6f), (0x1ee2, 0x1ee2, 1, 0x4f),
   (0x1ee3, 0x1ee3, 1, 0x6f), (0x1ee4, 0x1ee4, 1, 0x55),
   (0x1ee5, 0x1ee5, 1, 0x75), (0x1ee6, 0x1ee6, 1, 0x55),
   (0x1ee7, 0x1ee7, 1, 0x75), (0x1ee8, 0x1ee8, 1, 0x55),
   (0x1ee9, 0x1ee9, 1, 0x75), (0x1eea, 0x1eea, 1, 0x55),
   (0x1eeb, 0x1eeb, 1, 0x75), (0x1eec, 0x1eec, 1, 0x55),
   (0x1eed, 0x1eed, 1, 0x75), (0x1eee, 0x1eee, 1, 0x55),
   (0x1eef, 0x1eef, 1, 0x75), (0x1ef0, 0x1ef0, 1, 0x55),
   (0x1ef1, 0x1ef1, 1, 0x75), (0x1ef2, 0x1ef2, 1, 0x59),
   (0x1ef3, 0x1ef3, 1, 0x79), (0x1ef4, 0x1ef4, 1, 0x59),
   (0x1ef5, 0x1ef5, 1, 0x79), (0x1ef6, 0x1ef6, 1, 0x59),
   (0x1ef7, 0x1ef7, 1, 0x79), (0x1ef8, 0x1ef8, 1, 0x59),
   (0x1ef9, 0x1ef9, 1, 0x79), (0x1fbd, 0x1fbd, 1, 0x20),
   (0x1fbf, 0x1fc1, 0, 0x20), (0x1fcd, 0x1fcf, 0, 0x20),
   (0x1fdd, 0x1fdf, 0, 0x20), (0x1fed, 0x1fee, 0, 0x20),
   (0x1fef, 0x1fef, 1, 0x60), (0x1ffd, 0x1ffe, 0, 0x20),
   (0x2000, 0x200a, 0, 0x20), (0x2017, 0x2017, 1, 0x20),
   (0x2024, 0x2024, 1, 0x2e), (0x202f, 0x202f, 1, 0x20),
   (0x203e, 0x203e, 1, 0x20), (0x205f, 0x205f, 1, 0x20),
   (0x2070, 0x2070, 1, 0x30), (0x2071, 0x2071, 1, 0x69),
   (0x2074, 0x2079, 1, 0x34), (0x207a, 0x207a, 1, 0x2b),
   (0x207c, 0x207c, 1, 0x3d), (0x207d, 0x207e, 1, 0x28),
   (0x207f, 0x207f, 1, 0x6e), (0x2080, 0x2089, 1, 0x30),
   (0x208a, 0x208a, 1, 0x2b), (0x208c, 0x208c, 1, 0x3d),
   (0x208d, 0x208e, 1, 0x28), (0x2090, 0x2090, 1, 0x61),
   (0x2091, 0x2091, 1, 0x65), (0x2092, 0x2092, 1, 0x6f),
   (0x2093, 0x2093, 1, 0x78), (0x2095, 0x2095, 1, 0x68),
   (0x2096, 0x2099, 1, 0x6b), (0x209a, 0x209a, 1, 0x70),
   (0x209b, 0x209c, 1, 0x73), (0x2102, 0x2103, 0, 0x43),
   (0x2109, 0x2109, 1, 0x46), (0x210a, 0x210a, 1, 0x67),
   (0x210b, 0x210d, 0, 0x48), (0x210e, 0x210e, 1, 0x68),
   (0x2110, 0x2111, 0, 0x49), (0x2112, 0x2112, 1, 0x4c),
   (0x2113, 0x2113, 1, 0x6c), (0x2115, 0x2115, 1, 0x4e),
   (0x2119, 0x211b, 1, 0x50), (0x211c, 0x211d, 0, 0x52),
   (0x2124, 0x2124, 1, 0x5a), (0x2128, 0x2128, 1, 0x5a),
   (0x212a, 0x212a, 1, 0x4b), (0x212b, 0x212d, 1, 0x41),
   (0x212f, 0x212f, 1, 0x65), (0x2130, 0x2131, 1, 0x45),
   (0x2133, 0x2133, 1, 0x4d), (0x2134, 0x2134, 1, 0x6f),
   (0x2139, 0x2139, 1, 0x69), (0x2145, 0x2145, 1, 0x44),
   (0x2146, 0x2147, 1, 0x64), (0x2148, 0x2149, 1, 0x69),
   (0x215f, 0x215f, 1, 0x31), (0x2160, 0x2160, 1, 0x49),
   (0x2164, 0x2164, 1, 0x56), (0x2169, 0x2169, 1, 0x58),
   (0x216c, 0x216c, 1, 0x4c), (0x216d, 0x216e, 1, 0x43),
   (0x216f, 0x216f, 1, 0x4d), (0x2170, 0x2170, 1, 0x69),
   (0x2174, 0x2174, 1, 0x76), (0x2179, 0x2179, 1, 0x78),
   (0x217c, 0x217c, 1, 0x6c), (0x217d, 0x217e, 1, 0x63),
   (0x217f, 0x217f, 1, 0x6d), (0x2260, 0x2260, 1, 0x3d),
   (0x226e, 0x226e, 1, 0x3c), (0x226f, 0x226f, 1, 0x3e),
   (0x2460, 0x2468, 1, 0x31), (0x24b6, 0x24cf, 1, 0x41),
   (0x24d0, 0x24e9, 1, 0x61), (0x24ea, 0x24ea, 1, 0x30),
   (0x2c7c, 0x2c7c, 1, 0x6a), (0x2c7d, 0x2c7d, 1, 0x56),
   (0x3000, 0x3000, 1, 0x20), (0x309b, 0x309c, 0, 0x20),
   (0x32c0, 0x32c8, 1, 0x31), (0x3358, 0x3361, 1, 0x30),
   (0x3382, 0x3382, 1, 0x41), (0x338c, 0x338c, 1, 0x46),
   (0x338d, 0x338d, 1, 0x67), (0x3395, 0x3395, 1, 0x6c),
   (0x339b, 0x339b, 1, 0x6d), (0x33b2, 0x33b2, 1, 0x73),
   (0x33b6, 0x33b6, 1, 0x56), (0x33bc, 0x33bc, 1, 0x57),
   (0x33c0, 0x33c0, 1, 0x6b), (0x33c1, 0x33c1, 1, 0x4d),
   (0x33e0, 0x33e8, 1, 0x31), (0xa7f2, 0xa7f2, 1, 0x43),
   (0xa7f3, 0xa7f3, 1, 0x46), (0xa7f4, 0xa7f4, 1, 0x51),
   (0xfb29, 0xfb29, 1, 0x2b), (0xfc5e, 0xfc63, 0, 0x20),
   (0xfdfb, 0xfdfb, 1, 0x20), (0xfe10, 0xfe10, 1, 0x2c),
   (0xfe13, 0xfe14, 1, 0x3a), (0xfe15, 0xfe15, 1, 0x21),
   (0xfe16, 0xfe16, 1, 0x3f), (0xfe33, 0xfe34, 0, 0x5f),
   (0xfe35, 0xfe36, 1, 0x28), (0xfe37, 0xfe37, 1, 0x7b),
   (0xfe38, 0xfe38, 1, 0x7d), (0xfe47, 0xfe47, 1, 0x5b),
   (0xfe48, 0xfe48, 1, 0x5d), (0xfe49, 0xfe4c, 0, 0x20),
   (0xfe4d, 0xfe4f, 0, 0x5f), (0xfe50, 0xfe50, 1, 0x2c),
   (0xfe52, 0xfe52, 1, 0x2e), (0xfe54, 0xfe54, 1, 0x3b),
   (0xfe55, 0xfe55, 1, 0x3a), (0xfe56, 0xfe56, 1, 0x3f),
   (0xfe57, 0xfe57, 1, 0x21), (0xfe59, 0xfe5a, 1, 0x28),
   (0xfe5b, 0xfe5b, 1, 0x7b), (0xfe5c, 0xfe5c, 1, 0x7d),
   (0xfe5f, 0xfe5f, 1, 0x23), (0xfe60, 0xfe60, 1, 0x26),
   (0xfe61, 0xfe62, 1, 0x2a), (0xfe63, 0xfe63, 1, 0x2d),
   (0xfe64, 0xfe64, 1, 0x3c), (0xfe65, 0xfe65, 1, 0x3e),
   (0xfe66, 0xfe66, 1, 0x3d), (0xfe68, 0xfe68, 1, 0x5c),
   (0xfe69, 0xfe6a, 1, 0x24), (0xfe6b, 0xfe6b, 1, 0x40),
   (0xfe70, 0xfe70, 1, 0x20), (0xfe72, 0xfe72, 1, 0x20),
   (0xfe74, 0xfe74, 1, 0x20), (0xfe76, 0xfe76, 1, 0x20),
   (0xfe78, 0xfe78, 1, 0x20), (0xfe7a, 0xfe7a, 1, 0x20),
   (0xfe7c, 0xfe7c, 1, 0x20), (0xfe7e, 0xfe7e, 1, 0x20),
   (0xff01, 0xff5e, 1, 0x21), (0xffe3, 0xffe3, 1, 0x20),
   (0x107a5, 0x107a5, 1, 0x71), (0x1d400, 0x1d419, 1, 0x41),
   (0x1d41a, 0x1d433, 1, 0x61), (0x1d434, 0x1d44d, 1, 0x41),
   (0x1d44e, 0x1d454, 1, 0x61), (0x1d456, 0x1d467, 1, 0x69),
   (0x1d468, 0x1d481, 1, 0x41), (0x1d482, 0x1d49b, 1, 0x61),
   (0x1d49c, 0x1d49c, 1, 0x41), (0x1d49e, 0x1d49f, 1, 0x43),
   (0x1d4a2, 0x1d4a2, 1, 0x47), (0x1d4a5, 0x1d4a6, 1, 0x4a),
   (0x1d4a9, 0x1d4ac, 1, 0x4e), (0x1d4ae, 0x1d4b5, 1, 0x53),
   (0x1d4b6, 0x1d4b9, 1, 0x61), (0x1d4bb, 0x1d4bb, 1, 0x66),
   (0x1d4bd, 0x1d4c3, 1, 0x68), (0x1d4c5, 0x1d4cf, 1, 0x70),
   (0x1d4d0, 0x1d4e9, 1, 0x41), (0x1d4ea, 0x1d503, 1, 0x61),
   (0x1d504, 0x1d505, 1, 0x41), (0x1d507, 0x1d50a, 1, 0x44),
   (0x1d50d, 0x1d514, 1, 0x4a), (0x1d516, 0x1d51c, 1, 0x53),
   (0x1d51e, 0x1d537, 1, 0x61), (0x1d538, 0x1d539, 1, 0x41),
   (0x1d53b, 0x1d53e, 1, 0x44), (0x1d540, 0x1d544, 1, 0x49),
   (0x1d546, 0x1d546, 1, 0x4f), (0x1d54a, 0x1d550, 1, 0x53),
   (0x1d552, 0x1d56b, 1, 0x61), (0x1d56c, 0x1d585, 1, 0x41),
   (0x1d586, 0x1d59f, 1, 0x61), (0x1d5a0, 0x1d5b9, 1, 0x41),
   (0x1d5ba, 0x1d5d3, 1, 0x61), (0x1d5d4, 0x1d5ed, 1, 0x41),
   (0x1d5ee, 0x1d607, 1, 0x61), (0x1d608, 0x1d621, 1, 0x41),
   (0x1d622, 0x1d63b, 1, 0x61), (0x1d63c, 0x1d655, 1, 0x41),
   (0x1d656, 0x1d66f, 1, 0x61), (0x1d670, 0x1d689, 1, 0x41),
   (0x1d68a, 0x1d6a3, 1, 0x61), (0x1d7ce, 0x1d7d7, 1, 0x30),
   (0x1d7d8, 0x1d7e1, 1, 0x30), (0x1d7e2, 0x1d7eb, 1, 0x30),
   (0x1d7ec, 0x1d7f5, 1, 0x30), (0x1d7f6, 0x1d7ff, 1, 0x30),
   (0x1f12a, 0x1f12a, 1, 0x53), (0x1f12b, 0x1f12b, 1, 0x43),
   (0x1f12c, 0x1f12c, 1, 0x52), (0x1f130, 0x1f149, 1, 0x41),
   (0x1fbf0, 0x1fbf9, 1, 0x30)]

/-- Code points with several ASCII characters in their decomposition. -/
def multipleRows : List (Nat × String) :=
  [(0xbc, "14"), (0xbd, "12"), (0xbe, "34"), (0x132, "IJ"), (0x133, "ij"),
   (0x1c4, "DZ"), (0x1c5, "Dz"), (0x1c6, "dz"), (0x1c7, "LJ"), (0x1c8, "Lj"),
   (0x1c9, "lj"), (0x1ca, "NJ"), (0x1cb, "Nj"), (0x1cc, "nj"), (0x1f1, "DZ"),
   (0x1f2, "Dz"), (0x1f3, "dz"), (0x2025, ".."), (0x2026, "..."),
   (0x203c, "!!"), (0x2047, "??"), (0x2048, "?!"), (0x2049, "!?"),
   (0x20a8, "Rs"), (0x2100, "a/c"), (0x2101, "a/s"), (0x2105, "c/o"),
   (0x2106, "c/u"), (0x2116, "No"), (0x2120, "SM"), (0x2121, "TEL"),
   (0x2122, "TM"), (0x213b, "FAX"), (0x2150, "17"), (0x2151, "19"),
   (0x2152, "110"), (0x2153, "13"), (0x2154, "23"), (0x2155, "15"),
   (0x2156, "25"), (0x2157, "35"), (0x2158, "45"), (0x2159, "16"),
   (0x215a, "56"), (0x215b, "18"), (0x215c, "38"), (0x215d, "58"),
   (0x215e, "78"), (0x2161, "II"), (0x2162, "III"), (0x2163, "IV"),
   (0x2165, "VI"), (0x2166, "VII"), (0x2167, "VIII"), (0x2168, "IX"),
   (0x216a, "XI"), (0x216b, "XII"), (0x2171, "ii"), (0x2172, "iii"),
   (0x2173, "iv"), (0x2175, "vi"), (0x2176, "vii"), (0x2177, "viii"),
   (0x2178, "ix"), (0x217a, "xi"), (0x217b, "xii"), (0x2189, "03"),
   (0x2469, "10"), (0x246a, "11"), (0x246b, "12"), (0x246c, "13"),
   (0x246d, "14"), (0x246e, "15"), (0x246f, "16"), (0x2470, "17"),
   (0x2471, "18"), (0x2472, "19"), (0x2473, "20"), (0x2474, "(1)"),
   (0x2475, "(2)"), (0x2476, "(3)"), (0x2477, "(4)"), (0x2478, "(5)"),
   (0x2479, "(6)"), (0x247a, "(7)"), (0x247b, "(8)"), (0x247c, "(9)"),
   (0x247d, "(10)"), (0x247e, "(11)"), (0x247f, "(12)"), (0x2480, "(13)"),
   (0x2481, "(14)"), (0x2482, "(15)"), (0x2483, "(16)"), (0x2484, "(17)"),
   (0x2485, "(18)"), (0x2486, "(19)"), (0x2487, "(20)"), (0x2488, "1."),
   (0x2489, "2."), (0x248a, "3."), (0x248b, "4."), (0x248c, "5."),
   (0x248d, "6."), (0x248e, "7."), (0x248f, "8."), (0x2490, "9."),
   (0x2491, "10."), (0x2492, "11."), (0x2493, "12."), (0x2494, "13."),
   (0x2495, "14."), (0x2496, "15."), (0x2497, "16."), (0x2498, "17."),
   (0x2499, "18."), (0x249a, "19."), (0x249b, "20."), (0x249c, "(a)"),
   (0x249d, "(b)"), (0x249e, "(c)"), (0x249f, "(d)"), (0x24a0, "(e)"),
   (0x24a1, "(f)"), (0x24a2, "(g)"), (0x24a3, "(h)"), (0x24a4, "(i)"),
   (0x24a5, "(j)"), (0x24a6, "(k)"), (0x24a7, "(l)"), (0x24a8, "(m)"),
   (0x24a9, "(n)"), (0x24aa, "(o)"), (0x24ab, "(p)"), (0x24ac, "(q)"),
   (0x24ad, "(r)"), (0x24ae, "(s)"), (0x24af, "(t)"), (0x24b0, "(u)"),
   (0x24b1, "(v)"), (0x24b2, "(w)"), (0x24b3, "(x)"), (0x24b4, "(y)"),
   (0x24b5, "(z)"), (0x2a74, "::="), (0x2a75, "=="), (0x2a76, "==="),
   (0x3200, "()"), (0x3201, "()"), (0x3202, "()"), (0x3203, "()"),
   (0x3204, "()"), (0x3205, "()"), (0x3206, "()"), (0x3207, "()"),
   (0x3208, "()"), (0x3209, "()"), (0x320a, "()"), (0x320b, "()"),
   (0x320c, "()"), (0x320d, "()"), (0x320e, "()"), (0x320f, "()"),
   (0x3210, "()"), (0x3211, "()"), (0x3212, "()"), (0x3213, "()"),
   (0x3214, "()"), (0x3215, "()"), (0x3216, "()"), (0x3217, "()"),
   (0x3218, "()"), (0x3219, "()"), (0x321a, "()"), (0x321b, "()"),
   (0x321c, "()"), (0x321d, "()"), (0x321e, "()"), (0x3220, "()"),
   (0x3221, "()"), (0x3222, "()"), (0x3223, "()"), (0x3224, "()"),
   (0x3225, "()"), (0x3226, "()"), (0x3227, "()"), (0x3228, "()"),
   (0x3229, "()"), (0x322a, "()"), (0x322b, "()"), (0x322c, "()"),
   (0x322d, "()"), (0x322e, "()"), (0x322f, "()"), (0x3230, "()"),
   (0x3231, "()"), (0x3232, "()"), (0x3233, "()"), (0x3234, "()"),
   (0x3235, "()"), (0x3236, "()"), (0x3237, "()"), (0x3238, "()"),
   (0x3239, "()"), (0x323a, "()"), (0x323b, "()"), (0x323c, "()"),
   (0x323d, "()"), (0x323e, "()"), (0x323f, "()"), (0x3240, "()"),
   (0x3241, "()"), (0x3242, "()"), (0x3243, "()"), (0x3250, "PTE"),
   (0x3251, "21"), (0x3252, "22"), (0x3253, "23"), (0x3254, "24"),
   (0x3255, "25"), (0x3256, "26"), (0x3257, "27"), (0x3258, "28"),
   (0x3259, "29"), (0x325a, "30"), (0x325b, "31"), (0x325c, "32"),
   (0x325d, "33"), (0x325e, "34"), (0x325f, "35"), (0x32b1, "36"),
   (0x32b2, "37"), (0x32b3, "38"), (0x32b4, "39"), (0x32b5, "40"),
   (0x32b6, "41"), (0x32b7, "42"), (0x32b8, "43"), (0x32b9, "44"),
   (0x32ba, "45"), (0x32bb, "46"), (0x32bc, "47"), (0x32bd, "48"),
   (0x32be, "49"), (0x32bf, "50"), (0x32c9, "10"), (0x32ca, "11"),
   (0x32cb, "12"), (0x32cc, "Hg"), (0x32cd, "erg"), (0x32ce, "eV"),
   (0x32cf, "LTD"), (0x3362, "10"), (0x3363, "11"), (0x3364, "12"),
   (0x3365, "13"), (0x3366, "14"), (0x3367, "15"), (0x3368, "16"),
   (0x3369, "17"), (0x336a, "18"), (0x336b, "19"), (0x336c, "20"),
   (0x336d, "21"), (0x336e, "22"), (0x336f, "23"), (0x3370, "24"),
   (0x3371, "hPa"), (0x3372, "da"), (0x3373, "AU"), (0x3374, "bar"),
   (0x3375, "oV"), (0x3376, "pc"), (0x3377, "dm"), (0x3378, "dm2"),
   (0x3379, "dm3"), (0x337a, "IU"), (0x3380, "pA"), (0x3381, "nA"),
   (0x3383, "mA"), (0x3384, "kA"), (0x3385, "KB"), (0x3386, "MB"),
   (0x3387, "GB"), (0x3388, "cal"), (0x3389, "kcal"), (0x338a, "pF"),
   (0x338b, "nF"), (0x338e, "mg"), (0x338f, "kg"), (0x3390, "Hz"),
   (0x3391, "kHz"), (0x3392, "MHz"), (0x3393, "GHz"), (0x3394, "THz"),
   (0x3396, "ml"), (0x3397, "dl"), (0x3398, "kl"), (0x3399, "fm"),
   (0x339a, "nm"), (0x339c, "mm"), (0x339d, "cm"), (0x339e, "km"),
   (0x339f, "mm2"), (0x33a0, "cm2"), (0x33a1, "m2"), (0x33a2, "km2"),
   (0x33a3, "mm3"), (0x33a4, "cm3"), (0x33a5, "m3"), (0x33a6, "km3"),
   (0x33a7, "ms"), (0x33a8, "ms2"), (0x33a9, "Pa"), (0x33aa, "kPa"),
   (0x33ab, "MPa"), (0x33ac, "GPa"), (0x33ad, "rad"), (0x33ae, "rads"),
   (0x33af, "rads2"), (0x33b0, "ps"), (0x33b1, "ns"), (0x33b3, "ms"),
   (0x33b4, "pV"), (0x33b5, "nV"), (0x33b7, "mV"), (0x33b8, "kV"),
   (0x33b9, "MV"), (0x33ba, "pW"), (0x33bb, "nW"), (0x33bd, "mW"),
   (0x33be, "kW"), (0x33bf, "MW"), (0x33c2, "a.m."), (0x33c3, "Bq"),
   (0x33c4, "cc"), (0x33c5, "cd"), (0x33c6, "Ckg"), (0x33c7, "Co."),
   (0x33c8, "dB"), (0x33c9, "Gy"), (0x33ca, "ha"), (0x33cb, "HP"),
   (0x33cc, "in"), (0x33cd, "KK"), (0x33ce, "KM"), (0x33cf, "kt"),
   (0x33d0, "lm"), (0x33d1, "ln"), (0x33d2, "log"), (0x33d3, "lx"),
   (0x33d4, "mb"), (0x33d5, "mil"), (0x33d6, "mol"), (0x33d7, "PH"),
   (0x33d8, "p.m."), (0x33d9, "PPM"), (0x33da, "PR"), (0x33db, "sr"),
   (0x33dc, "Sv"), (0x33dd, "Wb"), (0x33de, "Vm"), (0x33df, "Am"),
   (0x33e9, "10"), (0x33ea, "11"), (0x33eb, "12"), (0x33ec, "13"),
   (0x33ed, "14"), (0x33ee, "15"), (0x33ef, "16"), (0x33f0, "17"),
   (0x33f1, "18"), (0x33f2, "19"), (0x33f3, "20"), (0x33f4, "21"),
   (0x33f5, "22"), (0x33f6, "23"), (0x33f7, "24"), (0x33f8, "25"),
   (0x33f9, "26"), (0x33fa, "27"), (0x33fb, "28"), (0x33fc, "29"),
   (0x33fd, "30"), (0x33fe, "31"), (0x33ff, "gal"), (0xfb00, "ff"),
   (0xfb01, "fi"), (0xfb02, "fl"), (0xfb03, "ffi"), (0xfb04, "ffl"),
   (0xfb05, "st"), (0xfb06, "st"), (0xfdfa, "   "), (0xfe19, "..."),
   (0xfe30, ".."), (0x1f100, "0."), (0x1f101, "0,"), (0x1f102, "1,"),
   (0x1f103, "2,"), (0x1f104, "3,"), (0x1f105, "4,"), (0x1f106, "5,"),
   (0x1f107, "6,"), (0x1f108, "7,"), (0x1f109, "8,"), (0x1f10a, "9,"),
   (0x1f110, "(A)"), (0x1f111, "(B)"), (0x1f112, "(C)"), (0x1f113, "(D)"),
   (0x1f114, "(E)"), (0x1f115, "(F)"), (0x1f116, "(G)"), (0x1f117, "(H)"),
   (0x1f118, "(I)"), (0x1f119, "(J)"), (0x1f11a, "(K)"), (0x1f11b, "(L)"),
   (0x1f11c, "(M)"), (0x1f11d, "(N)"), (0x1f11e, "(O)"), (0x1f11f, "(P)"),
   (0x1f120, "(Q)"), (0x1f121, "(R)"), (0x1f122, "(S)"), (0x1f123, "(T)"),
   (0x1f124, "(U)"), (0x1f125, "(V)"), (0x1f126, "(W)"), (0x1f127, "(X)"),
   (0x1f128, "(Y)"), (0x1f129, "(Z)"), (0x1f12d, "CD"), (0x1f12e, "WZ"),
   (0x1f14a, "HV"), (0x1f14b, "MV"), (0x1f14c, "SD"), (0x1f14d, "SS"),
   (0x1f14e, "PPV"), (0x1f14f, "WC"), (0x1f16a, "MC"), (0x1f16b, "MD"),
   (0x1f16c, "MR"), (0x1f190, "DJ")]

end Scaffold.Text.AsciiForm
