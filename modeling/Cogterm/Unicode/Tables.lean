import Mathlib.Data.List.Basic

namespace Cogterm.Unicode

-- The tables GraphemeTableGen made from Unicode 16.0.0: a trie over code
-- points whose leaves hold the width in the upper two bits and the class for
-- the join rules in the lower four.
def stage0 : List Nat := [
  0,32,64,96,128,159,191,202,202,202,202,202,202,202,202,202,202,202,202,202,216,248,266,270,267,264,275,307,339,339,339,367,399,
  423,455,487,307,307,517,307,307,307,307,307,545,566,202,202,598,630,307,307,307,651,683,697,307,716,746,770,802,831,863,895,202,
  202,202,202,202,202,202,202,202,202,202,202,202,202,202,202,202,202,202,202,202,202,202,202,202,202,202,202,202,202,202,927,202,
  202,202,202,202,202,202,202,202,202,202,202,202,202,202,202,202,202,202,202,202,202,202,202,202,202,202,202,202,202,202,927,307,
  307,307,307,307,307,307,307,307,307,307,307,307,307,307,307,307,307,307,307,307,307,307,307,307,307,307,307,307,307,307,307,307,
  307,307,307,307,307,307,307,307,307,307,307,307,307,307,307,307,307,307,307,307,307,307,307,307,307,307,307,307,307,307,307,307,
  307,307,307,307,307,307,307,307,307,307,307,307,307,307,307,307,307,307,307,307,307,307,307,307,307,307,307,307,307,307,307,307,
  307,307,307,307,307,307,307,307,307,307,307,307,307,307,307,307,307,307,307,307,307,307,307,307,307,307,307,307,307,307,307,307,
  307,307,307,307,307,307,307,307,307,307,307,307,307,307,307,307,307,307,307,307,307,307,307,307,307,307,307,307,307,307,307,307,
  307,307,307,307,307,307,307,307,307,307,307,307,307,307,307,307,307,307,307,307,307,307,307,307,307,307,307,307,307,307,307,307,
  307,307,307,307,307,307,307,307,307,307,307,307,307,307,307,307,307,307,307,307,307,307,307,307,307,307,307,307,307,307,307,307,
  307,307,307,307,307,307,307,307,307,307,307,307,307,307,307,307,307,307,307,307,307,307,307,307,307,307,307,307,307,307,307,307,
  307,307,307,307,307,307,307,307,307,307,307,307,307,307,307,307,307,307,307,307,307,307,307,307,307,307,307,307,307,307,307,307,
  307,307,307,307,307,307,307,307,307,307,307,307,307,307,307,307,307,307,307,307,307,307,307,307,307,307,307,307,307,307,307,959,
  967,307,307,307,307,307,307,307,307,307,307,307,307,307,307,307,307,307,307,307,307,307,307,307,307,307,307,307,307,307,307,339,
  339,339,339,339,339,339,339,339,339,339,339,339,339,339,339,339,339,339,339,339,339,339,339,339,339,339,339,339,339,339,999,339,
  339,339,339,339,339,339,339,339,339,339,339,339,339,339,339,339,339,339,339,339,339,339,339,339,339,339,339,339,339,339,999]

def stage1 : List Nat := [
  0,4,12,20,28,36,42,49,42,55,42,63,71,73,79,87,95,101,109,42,42,42,115,123,131,138,42,145,152,159,163,170,178,184,190,197,205,
  213,221,229,237,245,253,261,269,277,285,293,301,309,317,325,333,341,349,356,363,371,373,381,386,394,402,410,413,421,429,42,437,
  441,445,450,42,42,42,42,42,458,42,42,42,42,42,42,42,42,42,42,42,42,42,42,464,471,478,486,493,42,501,42,507,42,42,42,515,521,529,
  536,544,552,560,566,573,42,42,580,42,42,42,71,42,42,42,42,42,42,42,42,588,596,604,610,618,626,634,642,650,658,666,42,674,42,681,
  688,42,696,700,708,42,42,716,724,732,740,748,756,764,772,780,42,42,42,42,788,42,42,42,42,42,42,42,796,802,42,42,42,42,42,806,42,
  813,42,67,42,42,821,825,833,833,833,839,845,853,859,833,867,833,874,878,884,891,897,833,833,833,833,833,833,833,833,833,833,833,
  833,833,833,833,833,833,833,833,833,833,833,833,833,833,833,833,833,833,833,833,833,904,912,42,42,42,42,42,915,923,383,42,42,42,
  42,931,42,939,947,955,963,971,979,984,992,1000,1008,42,42,42,1015,1023,1024,1025,1026,1027,1028,1029,1023,1024,1025,1026,1027,
  1028,1029,1023,1024,1025,1026,1027,1028,1029,1023,1024,1025,1026,1027,1028,1029,1023,1024,1025,1026,1027,1028,1029,1023,1024,
  1025,1026,1027,1028,1036,1044,42,42,42,42,42,42,42,42,42,42,42,42,42,42,42,42,42,42,42,42,42,42,42,42,42,42,42,42,42,42,42,42,
  700,700,700,700,700,700,700,700,700,700,700,700,700,700,700,700,700,700,700,700,700,700,700,700,700,700,700,700,700,700,700,700,
  833,833,833,833,833,833,833,833,1052,42,42,42,42,42,42,42,42,42,42,42,1060,1066,42,813,853,1074,1079,1083,42,42,42,42,42,42,42,
  1091,42,42,42,1099,42,1104,42,42,42,42,42,42,42,42,42,42,42,42,42,42,42,42,42,42,1112,42,42,497,42,42,42,42,42,42,42,42,1120,
  1125,42,42,42,42,1131,1137,42,167,1145,42,1153,1161,1169,1177,1185,1193,1201,1209,1212,1220,42,1225,1233,1241,1248,1256,1261,
  1269,1273,1281,42,42,1284,1292,1296,1304,1307,42,1314,42,42,42,1320,42,42,42,1328,1336,42,1342,1350,1358,1366,42,42,42,42,42,
  1370,42,1378,42,1385,1393,1400,42,42,42,42,1403,1411,1419,42,42,42,42,42,42,42,42,42,42,42,42,42,42,42,42,529,1427,42,42,42,42,
  42,42,42,42,42,42,42,42,42,42,1432,42,42,42,42,42,42,42,42,42,42,42,42,42,42,42,42,42,42,42,42,42,42,42,42,42,42,42,1438,1445,
  42,42,42,42,42,42,42,42,1452,42,42,42,42,42,42,42,1459,1466,1470,833,833,833,833,833,833,833,833,833,833,833,833,833,833,833,
  833,833,833,833,833,833,833,833,833,833,833,833,833,833,833,833,1478,833,833,833,833,833,833,833,833,833,833,833,833,833,833,
  833,833,833,833,833,1486,1494,42,42,42,42,42,42,42,42,42,42,42,42,42,42,42,42,42,42,42,42,42,42,42,42,42,42,42,42,42,42,42,1496,
  833,833,833,833,1504,1511,833,833,833,833,833,1517,42,42,42,42,42,42,42,42,42,42,42,42,42,42,42,42,42,42,42,42,1525,42,42,42,42,
  42,42,42,42,42,42,42,42,42,42,42,42,42,42,42,42,42,42,42,42,42,42,42,42,1533,1541,42,42,42,42,42,1545,1553,42,42,1561,42,42,833,
  1569,42,42,42,42,42,42,42,42,42,42,42,42,42,42,42,42,42,42,1577,1585,1593,42,42,42,42,42,42,42,42,42,42,42,42,42,42,42,42,42,42,
  42,42,42,1601,42,1608,42,1445,42,42,42,42,42,1611,1617,42,42,42,42,42,42,42,1617,42,42,42,1623,42,42,42,42,42,42,42,42,1629,42,
  1637,42,42,42,42,42,42,42,42,42,42,42,42,42,42,42,42,42,42,42,42,42,42,42,42,42,42,1645,1646,1646,1653,1661,1667,1675,1681,1689,
  1697,1646,1646,1705,1712,1720,1727,1735,1743,1744,1745,1753,1761,1769,1774,1744,1782,1744,1790,42,1798,42,1806,1814,1821,1828,
  1646,1836,1844,1744,1744,1646,1852,1860,1868,42,42,42,42,1646,1646,1646,1646,1646,1646,1646,1646,1646,1646,1646,1646,1646,1646,
  1646,1876,833,833,833,833,833,833,833,833,833,833,833,833,833,833,833,833,833,833,833,833,833,833,833,833,833,833,833,833,833,
  833,833,834,1884,71,1892,1892,71,71,71,1900,1892,1892,1892,1892,1892,1892,1892,1892,1892,1892,1892,1892,1892,1892,1892,1892,
  1892,1892,1892,1892,1892,1892,1892,1892,1892,1892,1892,1892,1892,1892,1892,1892,700,700,700,700,700,700,700,700,700,700,700,700,
  700,700,700,700,700,700,700,700,700,700,700,700,700,700,700,700,700,700,700,1908]

def stage2 : List Nat := [
  0,0,0,0,8,8,8,8,8,8,8,9,0,0,0,0,17,24,32,34,42,8,41,48,54,62,64,71,76,8,74,45,78,45,83,41,91,99,52,8,78,45,8,8,8,8,8,8,8,8,42,
  107,73,8,8,8,8,76,8,76,8,8,8,114,90,121,129,8,8,8,8,137,137,137,137,137,137,137,137,8,8,145,146,152,40,145,146,152,40,8,8,8,8,8,
  8,76,8,146,146,146,146,146,146,76,8,8,8,8,8,160,166,8,8,8,8,8,8,173,137,137,137,137,175,181,8,8,8,8,8,8,8,189,8,137,197,8,8,8,8,
  160,137,137,8,8,201,8,8,168,209,216,223,8,8,229,200,8,8,8,137,137,165,8,8,8,8,8,8,168,137,201,8,8,8,8,8,160,164,237,8,8,168,245,
  249,162,8,8,8,253,8,8,8,8,261,137,8,8,8,8,172,137,137,268,137,137,137,273,8,277,282,282,282,282,288,295,302,173,282,310,8,8,282,
  317,8,277,282,282,325,332,338,345,352,358,366,310,8,373,375,382,8,8,8,8,8,8,386,393,400,200,8,8,8,404,8,382,8,277,282,282,325,
  412,338,420,427,8,8,310,8,8,434,317,8,277,282,282,325,412,442,345,352,450,366,310,8,458,8,464,8,8,8,8,8,8,467,475,482,358,8,8,8,
  8,8,490,8,277,282,282,325,282,498,505,512,518,526,310,8,8,8,317,8,8,8,8,8,8,530,538,545,551,8,310,8,362,8,559,8,277,282,282,282,
  282,567,574,581,358,8,310,8,8,8,317,8,8,8,8,8,8,8,588,595,603,8,8,611,8,8,8,8,8,8,618,165,202,138,8,8,8,8,8,8,618,163,8,138,8,8,
  8,8,8,8,166,8,8,376,589,8,8,8,8,8,8,173,296,176,169,137,173,137,137,137,163,375,8,8,8,8,8,8,8,169,625,633,8,8,467,638,201,8,224,
  8,646,237,8,237,8,8,8,8,654,654,654,654,654,654,654,654,662,662,662,662,662,670,670,670,670,670,670,670,670,8,8,8,169,8,8,8,8,
  678,8,8,8,684,8,8,310,8,8,8,310,8,8,8,8,8,8,689,297,697,295,164,237,8,8,8,8,160,8,8,8,8,8,8,518,8,8,8,8,200,8,8,8,8,705,712,720,
  727,8,8,202,735,8,8,8,8,739,138,747,298,755,216,8,8,8,8,8,8,137,137,138,8,8,8,8,8,8,272,8,8,8,8,8,763,769,473,8,8,8,8,160,164,8,
  274,8,8,8,777,785,8,8,8,8,791,799,559,8,8,8,8,807,811,779,8,8,816,137,625,395,824,166,8,832,840,845,34,853,861,867,8,874,8,8,
  882,137,44,122,37,8,8,8,8,44,8,8,137,137,137,137,201,8,890,76,115,8,897,45,8,874,8,8,51,96,146,38,146,40,8,76,905,911,8,918,8,
  40,8,8,924,8,122,8,8,8,64,932,927,937,104,942,125,50,8,948,46,8,956,954,8,8,954,8,43,76,43,8,8,122,8,8,46,964,8,972,8,8,980,8,8,
  8,8,8,8,981,8,8,8,989,997,1005,8,8,8,8,146,146,146,146,146,146,146,146,1013,146,146,146,146,152,146,146,8,8,8,8,152,1019,1025,
  50,1031,1038,40,8,841,122,8,1046,1054,1061,1069,1075,1082,1082,1090,1082,1079,1090,1094,1082,1102,1105,1082,1083,1113,1119,1127,
  1131,1129,1139,1082,1143,1144,1150,1152,1157,1109,1154,1163,1169,1177,1139,1185,975,874,1193,916,43,1197,1205,1212,8,1220,8,78,
  146,8,8,1228,8,874,8,1193,1236,8,8,8,8,8,8,915,8,1244,8,8,1252,8,8,8,8,1256,40,8,8,8,8,8,202,166,8,8,8,8,8,8,8,202,1264,1264,
  1264,1270,1264,1264,1264,1264,1264,1264,1274,8,1264,1264,1264,1264,1264,1264,1264,1264,1282,8,8,8,1264,1264,1264,1264,1264,1290,
  1298,1301,1308,1264,1264,1264,1264,1264,1264,1264,1265,1316,1264,1264,1264,1264,1324,1264,1264,1264,1264,1264,1308,1264,1265,
  1264,1264,1264,1264,1264,1264,1282,1332,1264,1264,1264,1265,1264,1264,1264,1264,146,1264,1264,1264,1264,1264,1264,1299,1339,
  1264,1264,1264,1264,1273,1264,1264,1264,1264,1264,1264,1265,8,8,8,8,8,8,8,202,816,1347,8,8,8,168,8,8,8,8,1353,463,8,8,1360,462,
  8,8,1367,8,8,8,8,8,807,603,1375,8,8,8,137,137,166,202,8,8,8,8,168,1347,8,8,202,137,559,8,654,654,654,1383,273,8,8,8,8,8,1388,
  1394,1401,8,8,8,237,8,8,8,8,8,1408,1415,8,463,1422,8,8,8,8,8,462,8,8,8,8,8,8,1430,449,200,8,8,8,8,1438,1446,8,8,8,8,470,1454,8,
  8,1462,1463,1463,1467,1463,1463,1463,1462,1463,1463,1467,1463,1463,1463,1462,1463,1463,1472,8,662,662,1480,1487,670,670,670,670,
  670,1491,8,8,8,375,8,8,8,8,137,137,1264,1330,137,137,1264,1264,1269,1264,1265,1274,8,8,1264,1264,1264,1264,1331,8,8,8,467,8,8,8,
  8,1265,8,0,1499,8,8,8,8,8,8,8,237,8,8,8,8,201,8,8,8,8,8,8,168,165,1506,170,8,8,8,8,8,728,8,8,8,8,170,8,8,8,8,8,162,8,8,8,8,8,
  1513,8,8,8,8,8,8,8,170,1519,8,8,8,8,8,8,8,1527,8,8,8,8,8,8,137,138,8,8,8,8,8,1535,202,274,8,8,8,8,8,1543,1550,464,231,8,8,8,8,8,
  8,165,8,8,8,202,622,163,8,551,8,8,8,8,8,463,8,274,8,8,8,8,8,1540,296,1558,1565,8,8,8,8,8,8,1573,1580,375,200,8,8,8,8,8,8,8,202,
  755,165,8,8,559,8,8,8,8,8,8,1588,1596,1600,358,8,1606,163,163,8,8,8,8,8,8,8,755,1613,1620,1628,8,1635,8,8,8,8,8,8,1370,137,1643,
  8,8,375,8,8,8,8,8,8,755,1651,1658,8,8,8,8,8,8,8,358,344,1666,201,8,8,640,8,8,8,8,8,8,755,1673,201,8,8,8,8,8,8,8,1681,1409,8,8,8,
  792,1689,164,8,8,8,8,8,1573,137,548,8,8,8,8,8,8,1697,1704,1712,8,8,8,8,8,8,8,1542,1718,1726,8,8,8,173,165,8,8,8,8,160,1734,202,
  8,1408,727,8,8,8,8,1741,1747,296,166,8,8,8,8,8,358,138,1409,8,8,172,137,137,1755,1762,8,8,8,8,8,8,1769,1776,1783,8,8,8,8,8,8,8,
  1791,1799,8,8,8,8,8,8,1807,8,1815,8,8,8,8,8,591,1823,1831,8,8,464,8,8,8,8,167,137,1347,8,8,8,8,8,168,137,753,8,8,8,8,8,8,163,8,
  8,8,8,8,8,138,8,8,8,8,1836,1843,8,8,202,602,603,603,603,603,603,202,165,8,8,8,8,8,1851,8,1859,8,1264,1264,1264,1264,1264,1264,
  1264,8,1264,1264,1282,8,8,8,8,1332,1264,1331,8,8,8,8,8,8,1268,1867,1264,1264,1264,1264,1321,8,1874,8,8,1882,8,1278,8,1264,1264,
  1264,1264,1264,1264,1264,1274,8,8,8,518,164,8,8,8,137,137,137,137,137,1347,137,137,138,8,8,8,8,8,8,8,468,1538,755,137,1890,164,
  8,8,8,1519,8,8,401,8,8,8,8,8,8,8,1264,1264,1265,8,1264,1264,1265,8,137,137,137,137,137,137,138,160,137,137,137,137,137,163,237,
  8,462,8,8,160,173,137,8,8,138,137,137,1892,179,165,8,8,202,8,8,8,8,8,8,375,8,8,8,8,8,170,8,8,8,8,8,168,8,8,138,8,8,8,8,8,170,
  165,8,8,8,8,8,8,1900,1082,1082,1082,1082,1082,1082,1082,1082,1083,1082,1082,1082,1082,1082,1082,146,1908,146,146,146,1916,146,
  146,146,146,146,1924,1932,1934,146,1942,1949,1954,146,1957,1082,1082,1082,1082,1962,1968,1968,1968,1976,1082,1264,1984,1264,
  1299,1990,1995,1264,1998,2006,1082,1092,1082,1082,1082,1090,1090,1090,1090,2007,1085,2015,1090,1090,1090,1090,1090,1090,1090,
  2016,1090,1090,1094,1082,1090,1090,1090,1090,2022,1094,1082,1090,1090,2029,2037,1090,1090,1090,1090,1090,1090,1090,1091,2045,
  1090,1090,1090,1090,1090,1090,1090,1090,2048,1090,1090,1090,1090,1090,1090,1090,2055,913,2063,1090,1090,1090,1082,1082,1128,
  1082,1082,2001,1082,1900,1082,1082,1082,1082,1082,1082,1082,1087,1090,1090,8,8,8,8,8,8,1092,1900,2050,1086,1082,2003,1086,1093,
  8,8,8,8,8,8,2071,1082,8,8,1244,1082,1090,1094,2007,1082,8,2071,8,8,8,8,8,8,1082,8,2073,8,8,8,8,1082,8,8,8,913,1082,1082,8,2081,
  1090,1090,1090,1090,1090,2086,2090,1090,1090,1090,1090,1090,1090,1090,1082,1082,1082,1082,1082,1082,1090,1093,1090,1141,1090,
  1090,1090,1090,1090,1090,1091,1084,1090,2048,1090,2006,1090,2007,1082,1082,1082,1082,1082,1082,1082,1113,2098,0,0,0,137,137,137,
  137,0,0,0,0,0,0,0,0,137,137,137,137,137,137,0,0,146,146,146,146,146,146,146,2106]

def stage3 : List Nat := [
  65,65,65,65,65,65,65,65,64,64,64,64,64,64,64,64,65,64,192,64,64,192,64,64,192,76,192,64,64,65,204,64,192,192,192,192,192,64,192,
  192,192,192,64,64,64,64,64,64,192,64,64,64,64,64,192,192,64,64,64,64,192,64,192,192,192,64,192,192,64,64,64,192,192,192,64,192,
  64,192,64,64,64,64,64,64,192,192,192,64,64,64,64,192,192,192,64,192,64,64,64,192,192,192,192,64,192,64,64,192,64,192,64,192,64,
  192,64,64,64,64,192,64,64,192,64,64,64,64,64,64,64,192,192,192,192,64,192,64,192,2,2,2,2,2,2,2,2,64,192,192,192,192,192,192,192,
  192,64,192,192,192,192,192,64,64,64,2,2,2,2,2,64,64,64,64,64,64,2,2,2,2,2,2,2,64,2,2,64,2,2,64,2,4,4,4,4,4,4,64,64,2,2,2,64,2,
  64,64,64,64,64,64,64,2,2,2,2,2,4,64,2,2,2,2,2,64,64,2,64,2,2,2,2,64,64,64,64,64,64,64,4,64,64,64,64,64,2,64,64,2,2,64,2,2,2,2,2,
  64,2,2,2,64,64,64,64,4,4,64,64,64,64,64,2,2,4,2,2,2,2,2,66,64,64,64,64,64,75,75,75,75,75,75,75,75,2,66,2,64,66,66,2,2,2,2,2,2,2,
  66,66,66,66,10,66,66,64,64,2,2,64,64,64,64,2,66,66,64,64,64,64,75,64,75,75,75,75,75,75,64,75,64,64,64,75,75,64,64,2,64,66,66,2,
  2,2,2,64,64,66,64,64,66,66,10,64,64,64,64,64,64,64,66,64,64,64,64,75,75,64,75,75,64,64,64,64,64,64,2,64,2,2,66,64,64,64,64,2,64,
  66,66,2,2,64,64,64,64,2,64,64,2,2,2,64,64,64,2,64,64,75,64,75,75,64,75,75,75,66,2,2,2,2,2,64,2,66,64,66,66,10,64,64,75,2,2,2,2,
  2,2,75,75,64,64,2,64,66,2,64,64,64,64,64,2,2,66,64,75,64,64,64,64,64,64,2,64,64,64,64,64,64,66,66,2,66,66,64,64,64,66,66,64,66,
  66,66,2,64,64,2,66,66,66,2,64,64,64,75,75,64,64,2,64,2,2,66,66,66,66,64,2,2,64,2,2,2,10,64,64,64,64,64,2,2,64,75,75,75,64,64,64,
  64,64,2,64,66,2,66,66,66,66,66,64,2,66,64,66,66,2,2,64,64,64,64,64,66,66,64,2,2,66,66,64,64,64,64,75,75,75,2,2,64,66,66,2,2,2,2,
  64,66,66,64,66,66,66,10,68,64,64,2,64,64,64,64,66,66,2,2,2,64,2,64,66,66,66,66,66,66,66,66,64,64,66,66,64,64,64,64,2,64,66,2,2,
  2,2,66,2,2,2,2,2,2,64,2,2,66,66,2,2,64,64,64,64,2,2,64,64,2,64,66,2,2,64,133,133,133,133,133,133,133,133,70,70,70,70,70,70,70,
  70,71,71,71,71,71,71,71,71,64,64,2,2,2,66,64,64,2,2,66,64,64,64,64,2,2,66,2,66,66,66,66,66,66,2,66,2,2,2,66,66,66,66,2,66,66,66,
  64,64,64,64,66,66,2,66,66,66,66,66,2,2,2,64,64,64,64,2,66,66,2,64,64,64,64,64,66,2,66,2,64,2,64,64,2,2,2,66,66,66,2,2,2,2,2,64,
  64,64,64,2,66,2,2,2,66,2,66,66,66,64,66,2,2,2,2,66,66,2,2,66,2,2,2,64,64,64,64,64,64,2,66,2,2,66,66,66,2,66,2,64,64,64,64,66,66,
  66,66,2,2,2,2,64,2,2,2,2,64,64,64,64,2,64,64,66,64,64,64,2,2,13,2,2,192,64,64,192,192,192,192,64,64,192,192,64,64,65,65,2,2,2,2,
  2,64,192,64,192,192,64,192,64,64,64,192,76,64,192,64,76,64,64,64,64,64,64,2,2,2,2,2,65,2,2,64,64,64,192,64,192,64,64,192,204,64,
  64,64,192,64,192,192,192,192,204,204,204,204,64,64,64,64,64,64,76,76,64,64,64,64,64,192,64,192,64,64,64,192,64,64,192,64,64,64,
  192,64,64,192,192,192,192,192,64,192,64,64,64,192,64,64,64,192,192,64,64,192,192,192,192,64,64,140,140,64,64,64,64,76,128,128,
  64,64,64,64,64,76,64,64,64,64,64,64,64,76,64,140,140,140,140,76,76,76,140,76,76,140,64,64,64,64,76,76,76,64,64,64,64,64,192,192,
  204,192,192,192,192,192,76,76,64,64,64,64,192,192,64,64,204,192,64,64,64,64,192,192,64,64,192,64,64,192,192,64,64,64,76,76,140,
  140,64,76,76,76,76,76,204,192,76,204,76,76,76,76,204,204,76,76,76,64,140,140,76,76,76,76,204,76,204,76,76,76,76,76,76,76,76,140,
  140,140,140,140,140,140,140,76,76,76,76,204,204,76,204,204,204,76,204,204,76,204,76,76,76,76,76,76,64,64,128,128,128,128,128,
  128,76,76,76,140,76,76,76,76,76,76,204,204,76,76,140,140,76,76,76,76,76,140,140,204,204,204,204,204,204,140,204,204,204,204,204,
  204,204,204,140,140,204,140,204,204,140,204,204,140,204,204,76,76,76,76,76,140,64,64,76,76,76,64,76,64,76,64,140,64,64,64,64,64,
  64,64,76,64,64,76,64,64,64,64,140,64,140,64,64,64,140,140,140,64,140,64,64,64,76,76,76,76,76,64,64,64,64,64,140,140,140,64,64,
  64,64,64,64,64,140,64,64,64,64,64,76,76,76,64,64,64,140,140,64,64,64,64,140,192,192,128,128,128,128,128,128,128,128,64,128,128,
  128,128,128,64,64,64,64,128,128,128,128,128,128,64,64,128,128,2,2,2,2,130,130,140,128,128,128,128,128,128,128,140,128,64,128,
  128,128,128,128,128,128,64,2,2,128,128,128,128,128,64,64,64,64,64,128,128,128,64,64,64,64,64,64,64,128,140,128,128,128,128,128,
  128,2,2,2,2,2,2,64,64,2,64,64,64,2,64,64,64,66,66,2,2,66,66,64,64,64,64,64,64,66,66,66,66,2,2,64,64,133,133,133,133,133,64,64,
  64,2,66,66,2,2,66,66,2,2,66,66,64,64,64,64,64,64,64,2,2,2,2,2,2,66,2,2,66,66,2,2,64,64,64,64,2,66,64,64,2,64,2,2,2,64,64,2,64,
  64,64,66,2,2,66,66,64,64,64,64,64,66,2,64,2,66,66,64,66,2,64,64,136,137,137,137,137,137,137,137,137,136,137,137,137,137,64,64,
  64,64,70,70,70,70,70,70,70,64,64,64,71,71,71,71,71,64,64,64,64,65,2,2,2,64,192,64,64,2,2,2,64,2,2,64,64,64,2,2,64,64,64,2,2,2,2,
  64,64,66,2,66,64,64,64,64,64,2,64,64,2,2,64,64,64,66,66,66,2,2,2,2,66,2,2,64,64,4,64,64,66,64,68,68,64,64,64,64,2,2,2,2,64,66,2,
  64,64,64,64,66,66,66,2,2,66,66,2,66,2,2,64,64,64,2,2,64,66,66,2,66,66,66,66,64,64,66,66,66,64,64,66,66,64,64,2,2,64,66,64,64,66,
  64,66,66,66,64,66,66,2,66,2,68,2,64,64,64,64,64,2,2,64,64,64,64,64,66,66,2,2,2,66,2,64,2,66,2,66,66,66,66,2,66,2,2,64,64,64,64,
  66,66,66,66,2,2,66,2,2,2,66,66,2,66,2,64,64,64,2,66,2,66,66,64,64,2,2,2,2,66,2,66,66,66,66,66,66,64,66,64,64,2,2,66,2,68,66,68,
  66,2,64,64,64,64,2,2,66,66,66,66,2,64,64,64,66,64,64,64,2,66,68,2,2,2,2,64,64,64,64,68,68,68,68,2,2,2,2,2,2,64,66,2,2,2,2,2,2,
  66,2,2,66,2,2,64,2,2,2,2,2,2,64,64,2,64,2,2,64,2,2,2,2,2,2,68,2,64,64,66,66,66,66,66,64,2,2,64,66,66,2,66,2,64,64,64,2,2,66,66,
  64,2,2,68,66,64,64,64,64,2,2,2,64,64,64,66,66,2,66,2,64,64,64,64,64,70,64,64,64,70,70,70,64,64,64,64,64,128,128,128,128,2,64,64,
  64,130,130,64,64,64,64,64,64,128,128,128,128,64,128,128,64,64,128,64,64,64,64,64,128,128,128,64,64,128,64,64,2,2,2,64,64,2,2,2,
  2,2,76,76,76,76,140,76,76,76,192,192,192,64,64,76,76,76,192,192,192,192,192,192,64,76,192,192,64,64,76,76,76,76,204,204,192,192,
  192,192,192,192,204,204,192,192,192,192,192,192,140,192,140,140,140,140,140,140,140,192,192,192,192,192,76,76,76,76,76,76,67,67,
  67,67,67,67,67,67,128,140,140,76,76,76,76,76,128,128,140,128,128,128,128,128,140,140,140,140,140,140,128,76,76,76,76,76,76,76,
  140,140,76,76,76,76,76,76,76,140,140,140,140,140,140,76,140,140,140,76,76,76,76,140,76,76,76,140,76,76,76,140,140,140,130,130,
  130,130,130,140,76,140,140,140,140,140,140,76,76,140,140,140,140,140,140,64,64,76,76,76,140,140,140,140,76,64,64,64,64,76,76,76,
  76,76,76,64,64,64,64,140,140,140,140,64,140,140,140,140,140,140,64,140,65,2,65,65,65,65,65,65,192,192,192,192,192,192,64,64]

def joinRules : List (List Nat) := [
  [0b00000011110011111111111111001111, 0b00001111111111111111111111111111,
   0b00000011110011111111111111001111, 0b00000011110011111111111101001111,
   0b00000000000000000000000000001100, 0b00000011110000001100001111001111,
   0b00000011110011110000111111001111, 0b00000011110011110011111111001111,
   0b00000011110011110000111111001111, 0b00000011110011110011111111001111,
   0b00000011000011111111111111001111, 0b00000011110011111111111111001111,
   0b00000011110011111111111111001111, 0b00000000110011111111111111001111,
   0b00000000000000000000000000000000, 0b00000000000000000000000000000000],
  [0b00000011110011111111111111001111, 0b00001111111111111111111111111111,
   0b00000011110011111111111111001111, 0b00000011110011111111111111001111,
   0b00000000000000000000000000001100, 0b00000011110000001100001111001111,
   0b00000011110011110000111111001111, 0b00000011110011110011111111001111,
   0b00000011110011110000111111001111, 0b00000011110011110011111111001111,
   0b00000011000011111111111111001111, 0b00000011110011111111111111001111,
   0b00000011110011111111111111001111, 0b00000000110011111111111111001111,
   0b00000000000000000000000000000000, 0b00000000000000000000000000000000]]

open List Nat

def ucdLookup (cp : Nat) : Nat :=
  let s0 := stage0.getD (cp >>> 11) 0
  let s1 := stage1.getD (s0 + ((cp >>> 6) &&& 31)) 0
  let s2 := stage2.getD (s1 + ((cp >>> 3) &&& 7)) 0
  stage3.getD (s2 + ((cp >>> 0) &&& 7)) 0

def ucdGraphemeJoins (state lead trail : Nat) : Nat :=
  let l := lead &&& 15
  let t := trail &&& 15
  ((joinRules.getD state []).getD l 0 >>> (t * 2)) &&& 3

def ucdGraphemeDone (state : Nat) : Bool := state == 3

def ucdToCharacterWidth (val : Nat) : Nat := val >>> 6

theorem get_of_all (table : List Nat) (index : Nat) (holds : Nat → Nat → Bool)
    (all : (table.zipIdx.all fun entry => holds entry.2 entry.1) = true) (inside : index < table.length) :
    holds index (table.getD index 0) = true := by
  have member : (table.getD index 0, index) ∈ table.zipIdx := by simp [mem_zipIdx_iff_getElem?, getElem?_eq_getElem inside]
  exact all_eq_true.mp all _ member

theorem get_past_end {table : List Nat} (outside : ¬ index < table.length) : table.getD index 0 = 0 := by
  simp [getElem?_eq_none (Nat.not_lt.mp outside)]

theorem entry_index (table : List Nat) (low high first last : Nat) (positive : 0 < low) (all : (table.zipIdx.all fun entry =>
      !(decide (low ≤ entry.1) && decide (entry.1 ≤ high)) || (decide (first ≤ entry.2) && decide (entry.2 ≤ last))) =
        true)
    (index : Nat) (atLeast : low ≤ table.getD index 0) (atMost : table.getD index 0 ≤ high) :
      first ≤ index ∧ index ≤ last := by
  by_cases inside : index < table.length
  · have found := get_of_all table index (fun index value =>
      !(decide (low ≤ value) && decide (value ≤ high)) || (decide (first ≤ index) && decide (index ≤ last))) all inside
    generalize table.getD index 0 = value at *
    simpa [atLeast, atMost, Nat.not_lt.mpr] using found
  · rw [get_past_end inside] at atLeast
    omega

theorem ucd_lookup_lt (cp : Nat) : ucdLookup cp < 256 := by
  have all : (stage3.zipIdx.all fun entry => decide (entry.1 < 256)) = true := by decide +kernel
  have entry (index : Nat) : stage3.getD index 0 < 256 := by
    by_cases inside : index < stage3.length
    · exact of_decide_eq_true (get_of_all stage3 index (fun _ value => decide (value < 256)) all inside)
    · rw [get_past_end inside]
      decide
  exact entry _

theorem character_width_le (cp : Nat) : ucdToCharacterWidth (ucdLookup cp) ≤ 3 := by
  have small := ucd_lookup_lt cp
  rw [ucdToCharacterWidth]
  omega

def isRegionalIndicator (cp : Nat) : Bool := decide (0x1F1E6 ≤ cp) && decide (cp ≤ 0x1F1FF)

theorem mask_seven (value : Nat) : value &&& 7 = value % 8 := and_two_pow_sub_one_eq_mod value 3

theorem regional_indicator_block {cp : Nat} (regional : ucdLookup cp &&& 15 = 3) : cp >>> 6 = 0x7C7 := by
  have all3 : (stage3.zipIdx.all fun entry =>
      !(entry.1 &&& 15 == 3) || (decide (1968 ≤ entry.2) && decide (entry.2 ≤ 1975))) = true := by decide +kernel
  have all2 := entry_index stage2 1961 1975 1685 1688 (by decide) (by decide +kernel)
  have all1 := entry_index stage1 1678 1688 870 870 (by decide) (by decide +kernel)
  have all0 := entry_index stage0 839 870 62 62 (by decide) (by decide +kernel)
  simp only [ucdLookup, mask_seven] at regional
  have mask31 : (cp >>> 6) &&& 31 = (cp >>> 6) % 32 := and_two_pow_sub_one_eq_mod _ 5
  generalize third : stage2.getD _ 0 = s2 at regional
  have leaf : 1968 ≤ s2 + cp >>> 0 % 8 ∧ s2 + cp >>> 0 % 8 ≤ 1975 := by
    by_cases inside : s2 + cp >>> 0 % 8 < stage3.length
    · have found := get_of_all stage3 _ (fun index value =>
        !(value &&& 15 == 3) || (decide (1968 ≤ index) && decide (index ≤ 1975))) all3 inside
      generalize stage3.getD _ 0 = value at *
      simpa [regional] using found
    · rw [get_past_end inside] at regional
      exact absurd regional (by decide)
  have index2 := all2 _ (by rw [third]; omega) (by omega)
  generalize second : stage1.getD _ 0 = s1 at index2
  have index1 := all1 _ (by rw [second]; omega) (by omega)
  generalize first : stage0.getD _ 0 = s0 at index1
  have index0 := all0 _ (by rw [first]; omega) (by omega)
  have top : cp >>> 11 = 62 := by omega
  have root : s0 = 863 := by
    rw [← first, top]
    decide
  omega

theorem regional_class_iff (cp : Nat) : ucdLookup cp &&& 15 = 3 ↔ isRegionalIndicator cp = true := by
  have block : ∀ offset < 64, ucdLookup (0x1F1C0 + offset) &&& 15 = 3 ↔ 38 ≤ offset := by decide +kernel
  rw [isRegionalIndicator, Bool.and_eq_true, decide_eq_true_eq, decide_eq_true_eq]
  constructor
  · intro regional
    have high := regional_indicator_block regional
    rw [shiftRight_eq_div_pow] at high
    have split : cp = 0x1F1C0 + (cp - 0x1F1C0) := by omega
    rw [split] at regional
    have low := (block (cp - 0x1F1C0) (by omega)).mp regional
    omega
  · intro range
    have split : cp = 0x1F1C0 + (cp - 0x1F1C0) := by omega
    rw [split]
    exact (block (cp - 0x1F1C0) (by omega)).mpr (by omega)

theorem join_table : ∀ l < 16, ∀ t < 16, (l = 3 ∧ t = 3 ∧ ucdGraphemeJoins 0 l t = 1 ∧ ucdGraphemeJoins 1 l t = 3) ∨
      (¬ (l = 3 ∧ t = 3) ∧ ucdGraphemeJoins 0 l t = ucdGraphemeJoins 1 l t ∧
        (ucdGraphemeJoins 0 l t = 0 ∨ ucdGraphemeJoins 0 l t = 3)) := by decide +kernel

theorem joins_masked (state lead trail : Nat) :
    ucdGraphemeJoins state (lead &&& 15) (trail &&& 15) = ucdGraphemeJoins state lead trail := by
  rw [ucdGraphemeJoins, Nat.and_assoc, Nat.and_assoc]
  rfl

theorem class_lt (value : Nat) : value &&& 15 < 16 := by
  rw [Nat.and_two_pow_sub_one_eq_mod value 4]
  exact Nat.mod_lt _ (by decide)

theorem joins_regional (isLead : isRegionalIndicator lead = true) (isTrail : isRegionalIndicator trail = true) :
    ucdGraphemeJoins 0 (ucdLookup lead) (ucdLookup trail) = 1 ∧ ucdGraphemeJoins 1 (ucdLookup lead) (ucdLookup trail) = 3 := by
  rw [← regional_class_iff] at isLead isTrail
  have entry := join_table _ (class_lt (ucdLookup lead)) _ (class_lt (ucdLookup trail))
  simp only [joins_masked] at entry
  rcases entry with ⟨_, _, zero, one⟩ | ⟨other, _⟩
  · exact ⟨zero, one⟩
  · exact absurd ⟨isLead, isTrail⟩ other

theorem joins_other (other : ¬ (isRegionalIndicator lead = true ∧ isRegionalIndicator trail = true)) :
    ucdGraphemeJoins 1 (ucdLookup lead) (ucdLookup trail) = ucdGraphemeJoins 0 (ucdLookup lead) (ucdLookup trail) ∧
      (ucdGraphemeJoins 0 (ucdLookup lead) (ucdLookup trail) = 0 ∨ ucdGraphemeJoins 0 (ucdLookup lead) (ucdLookup trail) =
        3) := by
  rw [← regional_class_iff, ← regional_class_iff] at other
  have entry := join_table _ (class_lt (ucdLookup lead)) _ (class_lt (ucdLookup trail))
  simp only [joins_masked] at entry
  rcases entry with ⟨isLead, isTrail, _⟩ | ⟨_, same, value⟩
  · exact absurd ⟨isLead, isTrail⟩ other
  · exact ⟨same.symm, value⟩

end Cogterm.Unicode
