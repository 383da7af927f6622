/-!
# Names of characters

The characters of the blocks Basic Latin, Latin-1 Supplement, General Punctuation and Currency
Symbols: the code point of each in hexadecimal notation and its name, or one of its names.
-/

namespace EmbeddedMarkup.Text.CharacterName

def table : String :=
  "0 NUL
0 NULL
1 SOH
1 START OF HEADING
2 START OF TEXT
2 STX
3 END OF TEXT
3 ETX
4 END OF TRANSMISSION
4 EOT
5 ENQ
5 ENQUIRY
6 ACK
6 ACKNOWLEDGE
7 ALERT
7 BEL
8 BACKSPACE
8 BS
9 CHARACTER TABULATION
9 HORIZONTAL TABULATION
9 HT
9 TAB
a END OF LINE
a EOL
a LF
a LINE FEED
a NEW LINE
a NL
b LINE TABULATION
b VERTICAL TABULATION
b VT
c FF
c FORM FEED
d CARRIAGE RETURN
d CR
e LOCKING-SHIFT ONE
e SHIFT OUT
e SO
f LOCKING-SHIFT ZERO
f SHIFT IN
f SI
10 DATA LINK ESCAPE
10 DLE
11 DC1
11 DEVICE CONTROL ONE
12 DC2
12 DEVICE CONTROL TWO
13 DC3
13 DEVICE CONTROL THREE
14 DC4
14 DEVICE CONTROL FOUR
15 NAK
15 NEGATIVE ACKNOWLEDGE
16 SYN
16 SYNCHRONOUS IDLE
17 END OF TRANSMISSION BLOCK
17 ETB
18 CAN
18 CANCEL
19 END OF MEDIUM
19 EOM
1a SUB
1a SUBSTITUTE
1b ESC
1b ESCAPE
1c FILE SEPARATOR
1c FS
1c INFORMATION SEPARATOR FOUR
1d GROUP SEPARATOR
1d GS
1d INFORMATION SEPARATOR THREE
1e INFORMATION SEPARATOR TWO
1e RECORD SEPARATOR
1e RS
1f INFORMATION SEPARATOR ONE
1f UNIT SEPARATOR
1f US
20 SPACE
20 SP
21 EXCLAMATION MARK
22 QUOTATION MARK
23 NUMBER SIGN
24 DOLLAR SIGN
25 PERCENT SIGN
26 AMPERSAND
27 APOSTROPHE
28 LEFT PARENTHESIS
29 RIGHT PARENTHESIS
2a ASTERISK
2b PLUS SIGN
2c COMMA
2d HYPHEN-MINUS
2e FULL STOP
2f SOLIDUS
30 DIGIT ZERO
31 DIGIT ONE
32 DIGIT TWO
33 DIGIT THREE
34 DIGIT FOUR
35 DIGIT FIVE
36 DIGIT SIX
37 DIGIT SEVEN
38 DIGIT EIGHT
39 DIGIT NINE
3a COLON
3b SEMICOLON
3c LESS-THAN SIGN
3d EQUALS SIGN
3e GREATER-THAN SIGN
3f QUESTION MARK
40 COMMERCIAL AT
41 LATIN CAPITAL LETTER A
42 LATIN CAPITAL LETTER B
43 LATIN CAPITAL LETTER C
44 LATIN CAPITAL LETTER D
45 LATIN CAPITAL LETTER E
46 LATIN CAPITAL LETTER F
47 LATIN CAPITAL LETTER G
48 LATIN CAPITAL LETTER H
49 LATIN CAPITAL LETTER I
4a LATIN CAPITAL LETTER J
4b LATIN CAPITAL LETTER K
4c LATIN CAPITAL LETTER L
4d LATIN CAPITAL LETTER M
4e LATIN CAPITAL LETTER N
4f LATIN CAPITAL LETTER O
50 LATIN CAPITAL LETTER P
51 LATIN CAPITAL LETTER Q
52 LATIN CAPITAL LETTER R
53 LATIN CAPITAL LETTER S
54 LATIN CAPITAL LETTER T
55 LATIN CAPITAL LETTER U
56 LATIN CAPITAL LETTER V
57 LATIN CAPITAL LETTER W
58 LATIN CAPITAL LETTER X
59 LATIN CAPITAL LETTER Y
5a LATIN CAPITAL LETTER Z
5b LEFT SQUARE BRACKET
5c REVERSE SOLIDUS
5d RIGHT SQUARE BRACKET
5e CIRCUMFLEX ACCENT
5f LOW LINE
60 GRAVE ACCENT
61 LATIN SMALL LETTER A
62 LATIN SMALL LETTER B
63 LATIN SMALL LETTER C
64 LATIN SMALL LETTER D
65 LATIN SMALL LETTER E
66 LATIN SMALL LETTER F
67 LATIN SMALL LETTER G
68 LATIN SMALL LETTER H
69 LATIN SMALL LETTER I
6a LATIN SMALL LETTER J
6b LATIN SMALL LETTER K
6c LATIN SMALL LETTER L
6d LATIN SMALL LETTER M
6e LATIN SMALL LETTER N
6f LATIN SMALL LETTER O
70 LATIN SMALL LETTER P
71 LATIN SMALL LETTER Q
72 LATIN SMALL LETTER R
73 LATIN SMALL LETTER S
74 LATIN SMALL LETTER T
75 LATIN SMALL LETTER U
76 LATIN SMALL LETTER V
77 LATIN SMALL LETTER W
78 LATIN SMALL LETTER X
79 LATIN SMALL LETTER Y
7a LATIN SMALL LETTER Z
7b LEFT CURLY BRACKET
7c VERTICAL LINE
7d RIGHT CURLY BRACKET
7e TILDE
7f DEL
7f DELETE
80 PAD
80 PADDING CHARACTER
81 HIGH OCTET PRESET
81 HOP
82 BPH
82 BREAK PERMITTED HERE
83 NBH
83 NO BREAK HERE
84 IND
84 INDEX
85 NEL
85 NEXT LINE
86 SSA
86 START OF SELECTED AREA
87 END OF SELECTED AREA
87 ESA
88 CHARACTER TABULATION SET
88 HORIZONTAL TABULATION SET
88 HTS
89 CHARACTER TABULATION WITH JUSTIFICATION
89 HORIZONTAL TABULATION WITH JUSTIFICATION
89 HTJ
8a LINE TABULATION SET
8a VERTICAL TABULATION SET
8a VTS
8b PARTIAL LINE DOWN
8b PARTIAL LINE FORWARD
8b PLD
8c PARTIAL LINE BACKWARD
8c PARTIAL LINE UP
8c PLU
8d REVERSE INDEX
8d REVERSE LINE FEED
8d RI
8e SINGLE SHIFT TWO
8e SINGLE-SHIFT-2
8e SS2
8f SINGLE SHIFT THREE
8f SINGLE-SHIFT-3
8f SS3
90 DCS
90 DEVICE CONTROL STRING
91 PRIVATE USE ONE
91 PRIVATE USE-1
91 PU1
92 PRIVATE USE TWO
92 PRIVATE USE-2
92 PU2
93 SET TRANSMIT STATE
93 STS
94 CANCEL CHARACTER
94 CCH
95 MESSAGE WAITING
95 MW
96 SPA
96 START OF GUARDED AREA
96 START OF PROTECTED AREA
97 END OF GUARDED AREA
97 END OF PROTECTED AREA
97 EPA
98 SOS
98 START OF STRING
99 SGC
99 SINGLE GRAPHIC CHARACTER INTRODUCER
9a SCI
9a SINGLE CHARACTER INTRODUCER
9b CONTROL SEQUENCE INTRODUCER
9b CSI
9c ST
9c STRING TERMINATOR
9d OPERATING SYSTEM COMMAND
9d OSC
9e PM
9e PRIVACY MESSAGE
9f APC
9f APPLICATION PROGRAM COMMAND
a0 NO-BREAK SPACE
a0 NBSP
a1 INVERTED EXCLAMATION MARK
a2 CENT SIGN
a3 POUND SIGN
a4 CURRENCY SIGN
a5 YEN SIGN
a6 BROKEN BAR
a7 SECTION SIGN
a8 DIAERESIS
a9 COPYRIGHT SIGN
aa FEMININE ORDINAL INDICATOR
ab LEFT-POINTING DOUBLE ANGLE QUOTATION MARK
ac NOT SIGN
ad SOFT HYPHEN
ad SHY
ae REGISTERED SIGN
af MACRON
b0 DEGREE SIGN
b1 PLUS-MINUS SIGN
b2 SUPERSCRIPT TWO
b3 SUPERSCRIPT THREE
b4 ACUTE ACCENT
b5 MICRO SIGN
b6 PILCROW SIGN
b7 MIDDLE DOT
b8 CEDILLA
b9 SUPERSCRIPT ONE
ba MASCULINE ORDINAL INDICATOR
bb RIGHT-POINTING DOUBLE ANGLE QUOTATION MARK
bc VULGAR FRACTION ONE QUARTER
bd VULGAR FRACTION ONE HALF
be VULGAR FRACTION THREE QUARTERS
bf INVERTED QUESTION MARK
c0 LATIN CAPITAL LETTER A WITH GRAVE
c1 LATIN CAPITAL LETTER A WITH ACUTE
c2 LATIN CAPITAL LETTER A WITH CIRCUMFLEX
c3 LATIN CAPITAL LETTER A WITH TILDE
c4 LATIN CAPITAL LETTER A WITH DIAERESIS
c5 LATIN CAPITAL LETTER A WITH RING ABOVE
c6 LATIN CAPITAL LETTER AE
c7 LATIN CAPITAL LETTER C WITH CEDILLA
c8 LATIN CAPITAL LETTER E WITH GRAVE
c9 LATIN CAPITAL LETTER E WITH ACUTE
ca LATIN CAPITAL LETTER E WITH CIRCUMFLEX
cb LATIN CAPITAL LETTER E WITH DIAERESIS
cc LATIN CAPITAL LETTER I WITH GRAVE
cd LATIN CAPITAL LETTER I WITH ACUTE
ce LATIN CAPITAL LETTER I WITH CIRCUMFLEX
cf LATIN CAPITAL LETTER I WITH DIAERESIS
d0 LATIN CAPITAL LETTER ETH
d1 LATIN CAPITAL LETTER N WITH TILDE
d2 LATIN CAPITAL LETTER O WITH GRAVE
d3 LATIN CAPITAL LETTER O WITH ACUTE
d4 LATIN CAPITAL LETTER O WITH CIRCUMFLEX
d5 LATIN CAPITAL LETTER O WITH TILDE
d6 LATIN CAPITAL LETTER O WITH DIAERESIS
d7 MULTIPLICATION SIGN
d8 LATIN CAPITAL LETTER O WITH STROKE
d9 LATIN CAPITAL LETTER U WITH GRAVE
da LATIN CAPITAL LETTER U WITH ACUTE
db LATIN CAPITAL LETTER U WITH CIRCUMFLEX
dc LATIN CAPITAL LETTER U WITH DIAERESIS
dd LATIN CAPITAL LETTER Y WITH ACUTE
de LATIN CAPITAL LETTER THORN
df LATIN SMALL LETTER SHARP S
e0 LATIN SMALL LETTER A WITH GRAVE
e1 LATIN SMALL LETTER A WITH ACUTE
e2 LATIN SMALL LETTER A WITH CIRCUMFLEX
e3 LATIN SMALL LETTER A WITH TILDE
e4 LATIN SMALL LETTER A WITH DIAERESIS
e5 LATIN SMALL LETTER A WITH RING ABOVE
e6 LATIN SMALL LETTER AE
e7 LATIN SMALL LETTER C WITH CEDILLA
e8 LATIN SMALL LETTER E WITH GRAVE
e9 LATIN SMALL LETTER E WITH ACUTE
ea LATIN SMALL LETTER E WITH CIRCUMFLEX
eb LATIN SMALL LETTER E WITH DIAERESIS
ec LATIN SMALL LETTER I WITH GRAVE
ed LATIN SMALL LETTER I WITH ACUTE
ee LATIN SMALL LETTER I WITH CIRCUMFLEX
ef LATIN SMALL LETTER I WITH DIAERESIS
f0 LATIN SMALL LETTER ETH
f1 LATIN SMALL LETTER N WITH TILDE
f2 LATIN SMALL LETTER O WITH GRAVE
f3 LATIN SMALL LETTER O WITH ACUTE
f4 LATIN SMALL LETTER O WITH CIRCUMFLEX
f5 LATIN SMALL LETTER O WITH TILDE
f6 LATIN SMALL LETTER O WITH DIAERESIS
f7 DIVISION SIGN
f8 LATIN SMALL LETTER O WITH STROKE
f9 LATIN SMALL LETTER U WITH GRAVE
fa LATIN SMALL LETTER U WITH ACUTE
fb LATIN SMALL LETTER U WITH CIRCUMFLEX
fc LATIN SMALL LETTER U WITH DIAERESIS
fd LATIN SMALL LETTER Y WITH ACUTE
fe LATIN SMALL LETTER THORN
ff LATIN SMALL LETTER Y WITH DIAERESIS
2000 EN QUAD
2001 EM QUAD
2002 EN SPACE
2003 EM SPACE
2004 THREE-PER-EM SPACE
2005 FOUR-PER-EM SPACE
2006 SIX-PER-EM SPACE
2007 FIGURE SPACE
2008 PUNCTUATION SPACE
2009 THIN SPACE
200a HAIR SPACE
200b ZERO WIDTH SPACE
200b ZWSP
200c ZERO WIDTH NON-JOINER
200c ZWNJ
200d ZERO WIDTH JOINER
200d ZWJ
200e LEFT-TO-RIGHT MARK
200e LRM
200f RIGHT-TO-LEFT MARK
200f RLM
2010 HYPHEN
2011 NON-BREAKING HYPHEN
2012 FIGURE DASH
2013 EN DASH
2014 EM DASH
2015 HORIZONTAL BAR
2016 DOUBLE VERTICAL LINE
2017 DOUBLE LOW LINE
2018 LEFT SINGLE QUOTATION MARK
2019 RIGHT SINGLE QUOTATION MARK
201a SINGLE LOW-9 QUOTATION MARK
201b SINGLE HIGH-REVERSED-9 QUOTATION MARK
201c LEFT DOUBLE QUOTATION MARK
201d RIGHT DOUBLE QUOTATION MARK
201e DOUBLE LOW-9 QUOTATION MARK
201f DOUBLE HIGH-REVERSED-9 QUOTATION MARK
2020 DAGGER
2021 DOUBLE DAGGER
2022 BULLET
2023 TRIANGULAR BULLET
2024 ONE DOT LEADER
2025 TWO DOT LEADER
2026 HORIZONTAL ELLIPSIS
2027 HYPHENATION POINT
2028 LINE SEPARATOR
2029 PARAGRAPH SEPARATOR
202a LEFT-TO-RIGHT EMBEDDING
202a LRE
202b RIGHT-TO-LEFT EMBEDDING
202b RLE
202c POP DIRECTIONAL FORMATTING
202c PDF
202d LEFT-TO-RIGHT OVERRIDE
202d LRO
202e RIGHT-TO-LEFT OVERRIDE
202e RLO
202f NARROW NO-BREAK SPACE
202f NNBSP
2030 PER MILLE SIGN
2031 PER TEN THOUSAND SIGN
2032 PRIME
2033 DOUBLE PRIME
2034 TRIPLE PRIME
2035 REVERSED PRIME
2036 REVERSED DOUBLE PRIME
2037 REVERSED TRIPLE PRIME
2038 CARET
2039 SINGLE LEFT-POINTING ANGLE QUOTATION MARK
203a SINGLE RIGHT-POINTING ANGLE QUOTATION MARK
203b REFERENCE MARK
203c DOUBLE EXCLAMATION MARK
203d INTERROBANG
203e OVERLINE
203f UNDERTIE
2040 CHARACTER TIE
2041 CARET INSERTION POINT
2042 ASTERISM
2043 HYPHEN BULLET
2044 FRACTION SLASH
2045 LEFT SQUARE BRACKET WITH QUILL
2046 RIGHT SQUARE BRACKET WITH QUILL
2047 DOUBLE QUESTION MARK
2048 QUESTION EXCLAMATION MARK
2049 EXCLAMATION QUESTION MARK
204a TIRONIAN SIGN ET
204b REVERSED PILCROW SIGN
204c BLACK LEFTWARDS BULLET
204d BLACK RIGHTWARDS BULLET
204e LOW ASTERISK
204f REVERSED SEMICOLON
2050 CLOSE UP
2051 TWO ASTERISKS ALIGNED VERTICALLY
2052 COMMERCIAL MINUS SIGN
2053 SWUNG DASH
2054 INVERTED UNDERTIE
2055 FLOWER PUNCTUATION MARK
2056 THREE DOT PUNCTUATION
2057 QUADRUPLE PRIME
2058 FOUR DOT PUNCTUATION
2059 FIVE DOT PUNCTUATION
205a TWO DOT PUNCTUATION
205b FOUR DOT MARK
205c DOTTED CROSS
205d TRICOLON
205e VERTICAL FOUR DOTS
205f MEDIUM MATHEMATICAL SPACE
205f MMSP
2060 WORD JOINER
2060 WJ
2061 FUNCTION APPLICATION
2062 INVISIBLE TIMES
2063 INVISIBLE SEPARATOR
2064 INVISIBLE PLUS
2066 LEFT-TO-RIGHT ISOLATE
2066 LRI
2067 RIGHT-TO-LEFT ISOLATE
2067 RLI
2068 FIRST STRONG ISOLATE
2068 FSI
2069 POP DIRECTIONAL ISOLATE
2069 PDI
206a INHIBIT SYMMETRIC SWAPPING
206b ACTIVATE SYMMETRIC SWAPPING
206c INHIBIT ARABIC FORM SHAPING
206d ACTIVATE ARABIC FORM SHAPING
206e NATIONAL DIGIT SHAPES
206f NOMINAL DIGIT SHAPES
20a0 EURO-CURRENCY SIGN
20a1 COLON SIGN
20a2 CRUZEIRO SIGN
20a3 FRENCH FRANC SIGN
20a4 LIRA SIGN
20a5 MILL SIGN
20a6 NAIRA SIGN
20a7 PESETA SIGN
20a8 RUPEE SIGN
20a9 WON SIGN
20aa NEW SHEQEL SIGN
20ab DONG SIGN
20ac EURO SIGN
20ad KIP SIGN
20ae TUGRIK SIGN
20af DRACHMA SIGN
20b0 GERMAN PENNY SIGN
20b1 PESO SIGN
20b2 GUARANI SIGN
20b3 AUSTRAL SIGN
20b4 HRYVNIA SIGN
20b5 CEDI SIGN
20b6 LIVRE TOURNOIS SIGN
20b7 SPESMILO SIGN
20b8 TENGE SIGN
20b9 INDIAN RUPEE SIGN
20ba TURKISH LIRA SIGN
20bb NORDIC MARK SIGN
20bc MANAT SIGN
20bd RUBLE SIGN
20be LARI SIGN
20bf BITCOIN SIGN
20c0 SOM SIGN"

end EmbeddedMarkup.Text.CharacterName
